import Mathlib.Tactic

/-!
The notes, the mutations of them that the handlers apply under the lock, and the
text of the notes file.
-/

namespace HerdrWebui.Notes

structure NoteEntry where
  id : String
  title : String
  content : String
  language : String
  createdAt : Nat
  updatedAt : Nat
  updatedBy : String
  deriving DecidableEq

structure NotesState where
  notes : List NoteEntry
  deriving DecidableEq

def maxNotes : Nat := 200

/-- The status code and the message of a refused mutation. -/
abbrev NotesError := Nat × String

/-- What a request does to the notes, with its fields already checked and the
clock and the fresh id read. -/
inductive NotesMutation where
  | create (id title content language updatedBy : String) (now : Nat)
  | update (noteId : String) (title content language : Option String)
      (updatedBy : String) (now : Nat)
  | delete (noteId : String)
  | clear

def NoteEntry.update (note : NoteEntry) (title content language : Option String)
    (updatedBy : String) (now : Nat) : NoteEntry :=
  { note with
    title := title.getD note.title
    content := content.getD note.content
    language := language.getD note.language
    updatedAt := now
    updatedBy }

/-- A refused mutation leaves the notes as they were. -/
def NotesMutation.apply (s : NotesState) : NotesMutation → Except NotesError NotesState
  | .create id title content language updatedBy now =>
    if s.notes.length ≥ maxNotes then .error (422, "too many notes")
    else
      .ok ⟨s.notes ++ [⟨id, title, content, language, now, now, updatedBy⟩]⟩
  | .update noteId title content language updatedBy now =>
    match s.notes.findIdx? (·.id == noteId) with
    | none => .error (404, "note not found")
    | some index =>
      .ok ⟨s.notes.modify index (·.update title content language updatedBy now)⟩
  | .delete noteId =>
    let notes := s.notes.filter (·.id != noteId)
    if notes.length = s.notes.length then .error (404, "note not found")
    else .ok ⟨notes⟩
  | .clear => .ok ⟨[]⟩

def hexDigit (n : Nat) : Char :=
  if n < 10 then Char.ofNat (48 + n) else Char.ofNat (87 + n)

/-- `serde_json` escapes the quote, the backslash and the control characters. -/
def escapeChar (c : Char) : List Char :=
  if c = '"' then ['\\', '"']
  else if c = '\\' then ['\\', '\\']
  else if c.toNat = 0x8 then ['\\', 'b']
  else if c.toNat = 0x9 then ['\\', 't']
  else if c.toNat = 0xA then ['\\', 'n']
  else if c.toNat = 0xC then ['\\', 'f']
  else if c.toNat = 0xD then ['\\', 'r']
  else if c.toNat < 0x20 then
    ['\\', 'u', '0', '0', hexDigit (c.toNat / 16), hexDigit (c.toNat % 16)]
  else [c]

def jsonString (s : String) : String :=
  "\"" ++ String.ofList (s.toList.flatMap escapeChar) ++ "\""

def jsonObject (fields : List (String × String)) : String :=
  "\x7b" ++ ",".intercalate (fields.map fun field =>
    jsonString field.1 ++ ":" ++ field.2) ++ "\x7d"

def NoteEntry.toJson (note : NoteEntry) : String :=
  jsonObject
    [("id", jsonString note.id), ("title", jsonString note.title),
      ("content", jsonString note.content), ("language", jsonString note.language),
      ("created_at", toString note.createdAt), ("updated_at", toString note.updatedAt),
      ("updated_by", jsonString note.updatedBy)]

/-- The payload of `save_notes`. -/
def NotesState.toJson (s : NotesState) : String :=
  jsonObject [("notes", "[" ++ ",".intercalate (s.notes.map NoteEntry.toJson) ++ "]")]

def NotesState.payload (s : NotesState) : List UInt8 := s.toJson.toUTF8.toList

end HerdrWebui.Notes
