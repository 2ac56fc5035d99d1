import HerdrWebui.Concurrency.System
import HerdrWebui.Data.ByteIndex
import HerdrWebui.Data.Json
import HerdrWebui.Tui.Keys

/-!
The editor of the Files screen: the keys that edit the open file, the find bar and the replace
prompt. The cursor and the ranges found are byte offsets into the text. An edit does not search
again, and a replacement does not move the cursor.

A slice or a change of the text at an offset inside a character, or behind the end, panics.
-/

namespace HerdrWebui.Tui

open Concurrency

/-- What is used of the `regex` crate: the matches of a text come in order, do not overlap and are
parts of it. -/
structure RegexEngine where
  Regex : Type
  escape : List Char → List Char
  build : List Char → Bool → Option Regex
  findIter : Regex → List Char → List (Nat × Nat)
  isRange : ∀ re text, ∀ range ∈ findIter re text, IsByteRange range text
  ordered : ∀ re text, (findIter re text).Pairwise fun range range' => range.2 ≤ range'.1

def maxFindMatches : Nat := 10000

structure EditorFind where
  active : Bool := false
  query : List Char := []
  matchCase : Bool := false
  regex : Bool := false
  ranges : List (Nat × Nat) := []
  selected : Nat := 0
  deriving DecidableEq

namespace RegexEngine

variable (engine : RegexEngine)

def buildRegex (find : EditorFind) : Option engine.Regex :=
  if find.query = [] then none
  else engine.build (if find.regex then find.query else engine.escape find.query) (!find.matchCase)

/-- The matches of the query that are not empty. -/
def matchesOf (find : EditorFind) (text : List Char) : List (Nat × Nat) :=
  match engine.buildRegex find with
  | none => []
  | some re => (engine.findIter re text).filter fun range => range.1 < range.2

def findRanges (find : EditorFind) (text : List Char) : List (Nat × Nat) :=
  (engine.matchesOf find text).take maxFindMatches

end RegexEngine

structure FilePreview where
  path : Option String := none
  content : List Char := []
  truncated : Bool := false
  binary : Bool := false
  hash : String := ""
  dirty : Bool := false
  deriving DecidableEq

/-- The part of the explorer that the editor uses. -/
structure FileExplorer where
  preview : FilePreview
  editActive : Bool := false
  editCursor : Nat := 0
  editorFind : EditorFind := {}
  deriving DecidableEq

/-- A key with the modifier that the other layers do not look at. -/
structure FileKey extends KeyEvent where
  alt : Bool
  deriving DecidableEq

/-- What the server answers, should a key ask it. -/
structure FileReplies where
  read : Except String Json
  write : Except String Json

/-- The text of a `WebApiError::Io`. -/
def ioError (message : String) : String := "webui connection failed: " ++ message

namespace FileExplorer

variable (e : FileExplorer)

def canEditPreview : Except String Unit :=
  if e.preview.binary then .error (ioError "binary file cannot be edited")
  else if e.preview.truncated then .error (ioError "truncated file cannot be edited safely")
  else if e.preview.path.isNone then .error (ioError "no file preview open")
  else .ok ()

def savePreview (write : Except String Json) : FileExplorer × Except String Unit :=
  if e.preview.path.isNone then (e, .error (ioError "no file preview open"))
  else
    match e.canEditPreview with
    | .error err => (e, .error err)
    | .ok _ =>
      match write with
      | .error err => (e, .error err)
      | .ok data =>
        let hash := (data.getStr "hash").getD e.preview.hash
        ({ e with preview := { e.preview with hash, dirty := false } }, .ok ())

/-- `open_preview_path` with the answer of the server. -/
def openPreviewPath (data : Json) (path : String) : FileExplorer :=
  { e with
    preview :=
      { path := some path
        content := ((data.getStr "content").getD "").toList
        truncated := (getBool data "truncated").getD false
        binary := (getBool data "binary").getD false
        hash := (data.getStr "hash").getD ""
        dirty := false } }

def startEdit : FileExplorer × Except String Unit :=
  match e.canEditPreview with
  | .error err => (e, .error err)
  | .ok _ =>
    ({ e with editCursor := byteLength e.preview.content, editActive := true }, .ok ())

def withText (content : List Char) (editCursor : Nat) : FileExplorer :=
  { e with preview := { e.preview with content, dirty := true }, editCursor }

def insertChar (ch : Char) : Option FileExplorer :=
  (splitAtByte e.editCursor e.preview.content).map fun cut =>
    e.withText (cut.1 ++ ch :: cut.2) (e.editCursor + ch.utf8Size)

/-- The keys of the editor that are no commands. A line starts behind a line break. -/
def typeKey (key : FileKey) : Option FileExplorer :=
  match key.code with
  | .esc => some { e with editActive := false }
  | .backspace =>
    (splitAtByte e.editCursor e.preview.content).map fun cut =>
      if cut.1 = [] then e
      else e.withText (cut.1.dropLast ++ cut.2) (byteLength cut.1.dropLast)
  | .enter => e.insertChar '\n'
  | .left =>
    (splitAtByte e.editCursor e.preview.content).map fun cut =>
      { e with editCursor := byteLength cut.1.dropLast }
  | .home =>
    (splitAtByte e.editCursor e.preview.content).map fun cut =>
      { e with editCursor := byteLength (cut.1.rdropWhile (· != '\n')) }
  | .right =>
    (splitAtByte e.editCursor e.preview.content).map fun cut =>
      { e with editCursor := e.editCursor + byteLength (cut.2.take 1) }
  | .end =>
    (splitAtByte e.editCursor e.preview.content).map fun cut =>
      { e with editCursor := e.editCursor + byteLength (cut.2.takeWhile (· != '\n')) }
  | .char ch => if key.control || key.alt then some e else e.insertChar ch
  | _ => some e

def editKey (key : FileKey) (replies : FileReplies) :
    Option (FileExplorer × Except String Unit) :=
  let e := { e with editCursor := min e.editCursor (byteLength e.preview.content) }
  if key.control && key.code == .char 's' then some (e.savePreview replies.write)
  else if key.control && key.code == .char 'r' then
    match e.preview.path, replies.read with
    | none, _ => some (e, .ok ())
    | some _, .error err => some (e, .error err)
    | some path, .ok data =>
      let e := e.openPreviewPath data path
      match e.canEditPreview with
      | .error err => some (e, .error err)
      | .ok _ => some ({ e with editCursor := byteLength e.preview.content }, .ok ())
  else (e.typeKey key).map fun e => (e, .ok ())

def withFind (editorFind : EditorFind) : FileExplorer := { e with editorFind }

variable (engine : RegexEngine)

def refreshFind : FileExplorer :=
  if e.editorFind.query = [] then e.withFind { e.editorFind with ranges := [], selected := 0 }
  else
    let ranges := engine.findRanges e.editorFind e.preview.content
    e.withFind { e.editorFind with ranges, selected := min e.editorFind.selected (ranges.length - 1) }

def editorFindOpen : FileExplorer :=
  (e.withFind { e.editorFind with active := true }).refreshFind engine

def editorFindClose : FileExplorer := e.withFind { e.editorFind with active := false }

def pushFindChar (ch : Char) : FileExplorer :=
  (e.withFind { e.editorFind with query := e.editorFind.query ++ [ch] }).refreshFind engine

def popFindChar : FileExplorer :=
  (e.withFind { e.editorFind with query := e.editorFind.query.dropLast }).refreshFind engine

/-- The index of the next match or of the one before, in a circle. -/
def nextMatch (selected count : Nat) (forward : Bool) : Nat :=
  (((selected : Int) + if forward then 1 else -1) % (count : Int)).toNat

def editorFindNext (forward : Bool) : Option FileExplorer :=
  if e.editorFind.ranges = [] then some e
  else
    let next := nextMatch e.editorFind.selected e.editorFind.ranges.length forward
    (e.editorFind.ranges[next]?).map fun range =>
      { e with
        editorFind := { e.editorFind with selected := next }
        editCursor := min range.1 (byteLength e.preview.content) }

def editorReplace (replacement : List Char) (all : Bool) :
    Option (FileExplorer × Except String Unit) :=
  if e.editorFind.ranges = [] then some (e, .error (ioError "no find matches to replace"))
  else
    let content :=
      if all then replaceRanges e.editorFind.ranges replacement e.preview.content
      else
        (e.editorFind.ranges[e.editorFind.selected]?).bind fun range =>
          replaceRange range replacement e.preview.content
    content.map fun content => ((e.withText content e.editCursor).refreshFind engine, .ok ())

end FileExplorer

/-- The Files screen with the replace prompt, as far as the editor goes. -/
structure FilesScreen where
  fileExplorer : FileExplorer
  promptInput : Option String := none
  status : String := ""
  error : Option String := none
  deriving DecidableEq

namespace FilesScreen

variable (engine : RegexEngine) (screen : FilesScreen)

def withExplorer (fileExplorer : FileExplorer) : FilesScreen := { screen with fileExplorer }

def report (outcome : FileExplorer × Except String Unit) (status : String) : FilesScreen :=
  match outcome.2 with
  | .ok _ => { screen with fileExplorer := outcome.1, status }
  | .error err => { screen with fileExplorer := outcome.1, error := some err }

def handleEditorFindKey (key : FileKey) : Option FilesScreen :=
  let e := screen.fileExplorer
  match key.code with
  | .esc => some { screen with fileExplorer := e.editorFindClose, status := "find closed" }
  | .enter =>
    (e.editorFindNext !key.shift).map fun e =>
      let count := e.editorFind.ranges.length
      { screen with
        fileExplorer := e
        status :=
          if count = 0 then "no matches" else s!"match {e.editorFind.selected + 1}/{count}" }
  | .backspace => some (screen.withExplorer (e.popFindChar engine))
  | .char ch =>
    if ch = 'A' then
      let editorFind := { e.editorFind with matchCase := !e.editorFind.matchCase }
      some (screen.withExplorer ((e.withFind editorFind).refreshFind engine))
    else if ch = 'X' then
      let editorFind := { e.editorFind with regex := !e.editorFind.regex }
      some (screen.withExplorer ((e.withFind editorFind).refreshFind engine))
    else if key.control then some screen
    else some (screen.withExplorer (e.pushFindChar engine ch))
  | _ => some screen

/-- `handle_files_key` while the file is edited. -/
def handleFilesKey (key : FileKey) (replies : FileReplies) : Option FilesScreen :=
  if screen.fileExplorer.editorFind.active then screen.handleEditorFindKey engine key
  else
    (screen.fileExplorer.editKey key replies).map fun outcome =>
      match outcome.2 with
      | .error err => { screen with fileExplorer := outcome.1, error := some err }
      | .ok _ =>
        let screen := screen.withExplorer outcome.1
        let e := outcome.1
        if !e.editActive then
          { screen with
            status :=
              if e.preview.dirty then "edit mode left with unsaved changes"
              else "edit mode closed" }
        else if key.control && key.code == .char 'f' then
          { screen with
            fileExplorer := e.editorFindOpen engine
            status := "find: Enter next, Shift+Enter prev, Esc closes" }
        else if key.control && key.code == .char 'h' then { screen with promptInput := some "" }
        else if key.control && key.code == .char 's' then { screen with status := "saved" }
        else screen

/-- The replacement, and whether it is for all matches. -/
def replacementOf (text : String) : List Char × Bool :=
  if text.toList.getLast? = some '!' then (text.toList.dropLast, true) else (text.toList, false)

/-- `run_prompt_action` of the replace prompt. -/
def runReplaceInFile (text : String) : Option FilesScreen :=
  let (replacement, all) := replacementOf text
  let count := screen.fileExplorer.editorFind.ranges.length
  (screen.fileExplorer.editorReplace engine replacement all).map fun outcome =>
    screen.report
      (match outcome.2 with
        | .ok _ => ({ outcome.1 with editActive := true }, outcome.2)
        | .error _ => outcome)
      (if all then s!"replaced {count} matches" else s!"replaced 1 of {count} matches")

/-- `handle_prompt_key` with the replace prompt. -/
def handleReplaceKey (text : String) (key : FileKey) : Option FilesScreen :=
  match key.code with
  | .esc => some { screen with promptInput := none }
  | .enter => { screen with promptInput := none }.runReplaceInFile engine (trim text)
  | _ =>
    match TuiView.editedText key.toKeyEvent text with
    | none => some screen
    | some text => some { screen with promptInput := some text }

/-- Outside the edit mode the one key of the editor is the one that starts it. -/
def handleKey (key : FileKey) (replies : FileReplies) : Option FilesScreen :=
  match screen.promptInput with
  | some text => screen.handleReplaceKey engine text key
  | none =>
    if screen.fileExplorer.editActive then screen.handleFilesKey engine key replies
    else if key.code = .char 'e' then
      some (screen.report screen.fileExplorer.startEdit "editing: Ctrl-S saves, Esc stops")
    else some screen

/-- The text in front of the cursor, whose lines the preview counts. -/
def render : Option FilesScreen :=
  let e := screen.fileExplorer
  if e.preview.path.isSome && e.editActive then
    (splitAtByte (min e.editCursor (byteLength e.preview.content)) e.preview.content).map
      fun _ => screen
  else some screen

end FilesScreen

inductive FilesAction where
  | key (key : FileKey) (replies : FileReplies)
  | render

/-- A screen that panicked is none, and takes no steps. -/
def filesStep (engine : RegexEngine) (screen : Option FilesScreen) (a : FilesAction) :
    Option (Option FilesScreen) :=
  screen.map fun screen =>
    match a with
    | .key key replies => screen.handleKey engine key replies
    | .render => screen.render

/-- The run starts with any file that was opened. -/
def filesEditor (engine : RegexEngine) : System (Option FilesScreen) FilesAction where
  init screen := ∃ preview, screen = some ⟨{ preview }, none, "", none⟩
  step := filesStep engine

/-- The cursor is a boundary of the text, and the ranges stored are matches of it. -/
structure OffsetsValid (engine : RegexEngine) (e : FileExplorer) : Prop where
  cursor : IsCharBoundary e.editCursor e.preview.content
  ranges : ∀ range ∈ e.editorFind.ranges,
    IsByteRange range e.preview.content ∧ range ∈ engine.matchesOf e.editorFind e.preview.content

/-- The ranges that a replacement is to rewrite. -/
def replacedRanges (engine : RegexEngine) (e : FileExplorer) (all : Bool) : List (Nat × Nat) :=
  if all then engine.matchesOf e.editorFind e.preview.content
  else (e.editorFind.ranges[e.editorFind.selected]?).toList

/-- A replacement rewrites the current match, or all matches, and nothing else. -/
def ReplacesExactly (engine : RegexEngine) (e : FileExplorer) (replacement : List Char)
    (all : Bool) : Prop :=
  ∃ e' result, e.editorReplace engine replacement all = some (e', result) ∧
    Rewrites replacement (replacedRanges engine e all) 0 e.preview.content e'.preview.content

/-- A key of the editor that changes the text, if it is not a reload. -/
def FileKey.edits (key : FileKey) : Bool :=
  match key.code with
  | .backspace | .enter => true
  | .char _ => !key.control && !key.alt
  | _ => false

/-- A reload that leaves the file open for editing. -/
def reloadsEditable (replies : FileReplies) : Bool :=
  match replies.read with
  | .error _ => true
  | .ok data => getBool data "truncated" != some true && getBool data "binary" != some true

/-- The matches to be replaced lie behind the cursor, and none is missing for a replacement of
all. -/
def replacesBehind (engine : RegexEngine) (e : FileExplorer) (all : Bool) : Bool :=
  (replacedRanges engine e all).all (fun range => e.editCursor ≤ range.1) &&
    (!all || e.editorFind.ranges == engine.matchesOf e.editorFind e.preview.content)

/-- The text changes only while no ranges are stored, or where a replacement may change it. -/
def keepsOffsets (engine : RegexEngine) (screen : Option FilesScreen) (a : FilesAction) : Bool :=
  match screen, a with
  | some screen, .key key replies =>
    let e := screen.fileExplorer
    match screen.promptInput with
    | some text =>
      key.code != .enter ||
        replacesBehind engine e (FilesScreen.replacementOf (trim text)).2
    | none =>
      if e.editActive && !e.editorFind.active then
        if key.control && key.code == .char 'r' then
          e.editorFind.ranges == [] && reloadsEditable replies
        else !key.edits || e.editorFind.ranges == []
      else true
  | _, _ => true

namespace RegexEngine

variable (engine : RegexEngine) (find : EditorFind) (text : List Char)

theorem isByteRange_of_mem_matchesOf {range : Nat × Nat} (h : range ∈ engine.matchesOf find text) :
    IsByteRange range text := by
  unfold matchesOf at h
  split at h
  · cases h
  · exact engine.isRange _ _ _ (List.mem_of_mem_filter h)

theorem pairwise_matchesOf :
    (engine.matchesOf find text).Pairwise fun range range' => range.2 ≤ range'.1 := by
  unfold matchesOf
  split
  · exact .nil
  · exact (engine.ordered _ _).filter _

theorem mem_matchesOf_of_mem_findRanges {range : Nat × Nat}
    (h : range ∈ engine.findRanges find text) : range ∈ engine.matchesOf find text :=
  List.mem_of_mem_take h

end RegexEngine

/-- The selected match is one of those stored, if there are any. -/
structure EditorInvariant (engine : RegexEngine) (e : FileExplorer) : Prop
    extends OffsetsValid engine e where
  selected : e.editorFind.ranges = [] ∨ e.editorFind.selected < e.editorFind.ranges.length

namespace EditorInvariant

variable {engine : RegexEngine} {e : FileExplorer}

theorem of_nil (hcursor : IsCharBoundary e.editCursor e.preview.content)
    (hranges : e.editorFind.ranges = []) : EditorInvariant engine e where
  cursor := hcursor
  ranges := by simp [hranges]
  selected := .inl hranges

theorem refreshFind (hcursor : IsCharBoundary e.editCursor e.preview.content) :
    EditorInvariant engine (e.refreshFind engine) := by
  unfold FileExplorer.refreshFind
  split
  · exact of_nil hcursor rfl
  · refine ⟨⟨hcursor, fun range hrange => ?_⟩, ?_⟩
    · have hmatch := engine.mem_matchesOf_of_mem_findRanges _ _ hrange
      exact ⟨engine.isByteRange_of_mem_matchesOf _ _ hmatch, hmatch⟩
    · rw [or_iff_not_imp_left]
      intro hsome
      have hpos := List.length_pos_iff.mpr hsome
      simp only [FileExplorer.withFind] at hpos ⊢
      omega

theorem withCursor (h : EditorInvariant engine e) {n : Nat} (hn : IsCharBoundary n e.preview.content) :
    EditorInvariant engine { e with editCursor := n } :=
  ⟨⟨hn, h.ranges⟩, h.selected⟩

theorem withActive (h : EditorInvariant engine e) (editActive : Bool) :
    EditorInvariant engine { e with editActive } :=
  ⟨⟨h.cursor, h.ranges⟩, h.selected⟩

theorem clamped (h : EditorInvariant engine e) :
    { e with editCursor := min e.editCursor (byteLength e.preview.content) } = e := by
  rw [min_eq_left h.cursor.le]

theorem insertChar (h : EditorInvariant engine e) (hnone : e.editorFind.ranges = []) (ch : Char) :
    ∃ e', e.insertChar ch = some e' ∧ EditorInvariant engine e' := by
  obtain ⟨front, rest, hcut, -, hfront⟩ := h.cursor.splitAtByte
  refine ⟨e.withText (front ++ ch :: rest) (e.editCursor + ch.utf8Size), ?_, ?_⟩
  · rw [FileExplorer.insertChar, hcut, Option.map_some]
  · refine of_nil ?_ hnone
    have hlength : byteLength (front ++ [ch]) = e.editCursor + ch.utf8Size := by
      rw [byteLength_append, hfront, byteLength_cons, byteLength_nil, Nat.add_zero]
    have hboundary := isCharBoundary_append (front ++ [ch]) rest
    rwa [hlength, List.append_assoc] at hboundary

theorem typeKey (h : EditorInvariant engine e) {key : FileKey}
    (hok : key.edits = true → e.editorFind.ranges = []) :
    ∃ e', e.typeKey key = some e' ∧ EditorInvariant engine e' := by
  obtain ⟨front, rest, hcut, htext, hfront⟩ := h.cursor.splitAtByte
  have hmoved : ∀ mid, mid <+: rest → IsCharBoundary (e.editCursor + byteLength mid)
      e.preview.content := fun mid hmid => by
    rw [← hfront, ← byteLength_append, htext]
    exact isCharBoundary_of_prefix ((List.prefix_append_right_inj front).mpr hmid)
  have hback : ∀ front', front' <+: front → IsCharBoundary (byteLength front') e.preview.content :=
    fun front' hpart => by
      rw [htext]
      exact isCharBoundary_of_prefix (hpart.trans (List.prefix_append front rest))
  unfold FileExplorer.typeKey
  cases hcode : key.code with
  | esc => exact ⟨_, rfl, h.withActive false⟩
  | backspace =>
    have hnone := hok (by rw [FileKey.edits, hcode])
    rw [hcut]
    refine ⟨_, rfl, ?_⟩
    by_cases hempty : front = []
    · simpa only [hempty, if_true] using h
    · simp only [hempty, if_false]
      exact of_nil (isCharBoundary_append front.dropLast rest) hnone
  | enter => exact h.insertChar (hok (by rw [FileKey.edits, hcode])) _
  | left =>
    rw [hcut]
    exact ⟨_, rfl, h.withCursor (hback _ (List.dropLast_prefix front))⟩
  | home =>
    rw [hcut]
    exact ⟨_, rfl, h.withCursor (hback _ (List.rdropWhile_prefix _ front))⟩
  | right =>
    rw [hcut]
    exact ⟨_, rfl, h.withCursor (hmoved _ (List.take_prefix 1 rest))⟩
  | «end» =>
    rw [hcut]
    exact ⟨_, rfl, h.withCursor (hmoved _ (List.takeWhile_prefix _))⟩
  | char ch =>
    by_cases hplain : (key.control || key.alt) = true
    · exact ⟨e, by simp only [hplain, if_true], h⟩
    · rw [Bool.not_eq_true] at hplain
      simp only [hplain, Bool.false_eq_true, if_false]
      refine h.insertChar (hok ?_) ch
      rw [FileKey.edits, hcode]
      simpa using hplain
  | _ => exact ⟨e, rfl, h⟩

theorem savePreview (h : EditorInvariant engine e) (write : Except String Json) :
    EditorInvariant engine (e.savePreview write).1 := by
  unfold FileExplorer.savePreview
  split
  · exact h
  · split
    · exact h
    · split
      · exact h
      · exact ⟨⟨h.cursor, h.ranges⟩, h.selected⟩

theorem startEdit (h : EditorInvariant engine e) : EditorInvariant engine e.startEdit.1 := by
  unfold FileExplorer.startEdit
  split
  · exact h
  · exact (h.withCursor (isCharBoundary_byteLength _)).withActive true

theorem editKey (h : EditorInvariant engine e) {key : FileKey} {replies : FileReplies}
    (hedits : key.edits = true → e.editorFind.ranges = [])
    (hreload : key.control = true → key.code = .char 'r' →
      e.editorFind.ranges = [] ∧ reloadsEditable replies = true) :
    ∃ e' result, e.editKey key replies = some (e', result) ∧ EditorInvariant engine e' := by
  unfold FileExplorer.editKey
  simp only [h.clamped]
  by_cases hsave : (key.control && key.code == .char 's') = true
  · exact ⟨_, _, if_pos hsave, h.savePreview replies.write⟩
  · rw [if_neg hsave]
    by_cases hkey : (key.control && key.code == .char 'r') = true
    · rw [if_pos hkey]
      rw [Bool.and_eq_true, beq_iff_eq] at hkey
      obtain ⟨hnone, heditable⟩ := hreload hkey.1 hkey.2
      split
      · exact ⟨_, _, rfl, h⟩
      · exact ⟨_, _, rfl, h⟩
      · next path data hpath hread =>
          have hcan : (e.openPreviewPath data path).canEditPreview = .ok () := by
            rw [reloadsEditable, hread, Bool.and_eq_true, bne_iff_ne, bne_iff_ne] at heditable
            have htruncated : (getBool data "truncated").getD false = false := by
              cases ht : getBool data "truncated" with
              | none => rfl
              | some b => cases b with
                | false => rfl
                | true => exact absurd ht heditable.1
            have hbinary : (getBool data "binary").getD false = false := by
              cases hb : getBool data "binary" with
              | none => rfl
              | some b => cases b with
                | false => rfl
                | true => exact absurd hb heditable.2
            simp [FileExplorer.canEditPreview, FileExplorer.openPreviewPath, htruncated, hbinary]
          rw [hcan]
          exact ⟨_, _, rfl, of_nil (isCharBoundary_byteLength _) hnone⟩
    · rw [if_neg hkey]
      obtain ⟨e', htype, h'⟩ := h.typeKey hedits
      exact ⟨e', .ok (), by rw [htype, Option.map_some], h'⟩

theorem nextMatch_lt (selected : Nat) {count : Nat} (forward : Bool) (hcount : 0 < count) :
    FileExplorer.nextMatch selected count forward < count := by
  unfold FileExplorer.nextMatch
  have hlt := Int.emod_lt_of_pos ((selected : Int) + if forward then 1 else -1)
    (Int.natCast_pos.mpr hcount)
  have hnonneg := Int.emod_nonneg ((selected : Int) + if forward then 1 else -1)
    (show (count : Int) ≠ 0 by omega)
  omega

theorem editorFindNext (h : EditorInvariant engine e) (forward : Bool) :
    ∃ e', e.editorFindNext forward = some e' ∧ EditorInvariant engine e' := by
  unfold FileExplorer.editorFindNext
  by_cases hnone : e.editorFind.ranges = []
  · exact ⟨e, if_pos hnone, h⟩
  · rw [if_neg hnone]
    have hlt := nextMatch_lt e.editorFind.selected forward
      (List.length_pos_iff.mpr hnone)
    have hget := List.getElem?_eq_getElem hlt
    simp only [hget, Option.map_some]
    refine ⟨_, rfl, ⟨?_, h.ranges⟩, .inr hlt⟩
    have hboundary := (h.ranges _ (List.getElem_mem hlt)).1.isCharBoundary
    rwa [min_eq_left hboundary.le]

theorem editorReplace (h : EditorInvariant engine e) (replacement : List Char) {all : Bool}
    (hok : replacesBehind engine e all = true) :
    ∃ e' result, e.editorReplace engine replacement all = some (e', result) ∧
      Rewrites replacement (replacedRanges engine e all) 0 e.preview.content e'.preview.content ∧
      EditorInvariant engine e' := by
  rw [replacesBehind, Bool.and_eq_true, List.all_eq_true] at hok
  obtain ⟨hbehind, hall⟩ := hok
  simp only [decide_eq_true_eq] at hbehind
  unfold FileExplorer.editorReplace
  by_cases hnone : e.editorFind.ranges = []
  · have hempty : replacedRanges engine e all = [] := by
      cases all with
      | true =>
        rw [Bool.not_true, Bool.false_or, beq_iff_eq] at hall
        rw [replacedRanges, if_pos rfl, ← hall, hnone]
      | false => simp [replacedRanges, hnone]
    rw [if_pos hnone, hempty]
    exact ⟨_, _, rfl, .nil 0 _, h⟩
  · rw [if_neg hnone]
    have hreplaced : ∃ content,
        (if all then replaceRanges e.editorFind.ranges replacement e.preview.content
          else (e.editorFind.ranges[e.editorFind.selected]?).bind fun range =>
            replaceRange range replacement e.preview.content) = some content ∧
        Rewrites replacement (replacedRanges engine e all) 0 e.preview.content content := by
      cases all with
      | true =>
        rw [Bool.not_true, Bool.false_or, beq_iff_eq] at hall
        have hordered := engine.pairwise_matchesOf e.editorFind e.preview.content
        rw [← hall] at hordered
        rw [replacedRanges, if_pos rfl, ← hall, if_pos rfl]
        exact exists_replaceRanges replacement (fun range hrange => (h.ranges range hrange).1)
          hordered
      | false =>
        have hget := List.getElem?_eq_getElem (h.selected.resolve_left hnone)
        have hrange := (h.ranges _ (List.getElem_mem (h.selected.resolve_left hnone))).1
        simp only [replacedRanges, Bool.false_eq_true, if_false, hget, Option.bind_some,
          Option.toList_some]
        exact exists_replaceRange replacement hrange
    obtain ⟨content, hcontent, hrewrites⟩ := hreplaced
    simp only [hcontent, Option.map_some]
    refine ⟨_, _, rfl, ?_, refreshFind (hrewrites.isCharBoundary h.cursor hbehind)⟩
    unfold FileExplorer.refreshFind
    split <;> exact hrewrites

end EditorInvariant

section Runs

variable {engine : RegexEngine} {screen : FilesScreen}

theorem handleEditorFindKey_invariant (h : EditorInvariant engine screen.fileExplorer)
    (key : FileKey) : ∃ screen', screen.handleEditorFindKey engine key = some screen' ∧
      EditorInvariant engine screen'.fileExplorer := by
  unfold FilesScreen.handleEditorFindKey
  split
  · exact ⟨_, rfl, ⟨h.cursor, h.ranges⟩, h.selected⟩
  · obtain ⟨e, hnext, he⟩ := h.editorFindNext !key.shift
    simp only [hnext, Option.map_some]
    exact ⟨_, rfl, he⟩
  · exact ⟨_, rfl, .refreshFind h.cursor⟩
  · split
    · exact ⟨_, rfl, .refreshFind h.cursor⟩
    · split
      · exact ⟨_, rfl, .refreshFind h.cursor⟩
      · split
        · exact ⟨_, rfl, h⟩
        · exact ⟨_, rfl, .refreshFind h.cursor⟩
  · exact ⟨_, rfl, h⟩

theorem handleFilesKey_invariant (h : EditorInvariant engine screen.fileExplorer)
    {key : FileKey} {replies : FileReplies} (hprompt : screen.promptInput = none)
    (hactive : screen.fileExplorer.editActive = true)
    (hok : keepsOffsets engine (some screen) (.key key replies) = true) :
    ∃ screen', screen.handleFilesKey engine key replies = some screen' ∧
      EditorInvariant engine screen'.fileExplorer := by
  unfold FilesScreen.handleFilesKey
  by_cases hfind : screen.fileExplorer.editorFind.active = true
  · rw [if_pos hfind]
    exact handleEditorFindKey_invariant h key
  · rw [if_neg hfind]
    rw [Bool.not_eq_true] at hfind
    simp only [keepsOffsets, hprompt, hactive, hfind, Bool.not_false, Bool.and_self, if_true]
      at hok
    have hedits : key.edits = true → screen.fileExplorer.editorFind.ranges = [] := by
      intro hedits
      split at hok
      · rw [Bool.and_eq_true, beq_iff_eq] at hok
        exact hok.1
      · simpa [hedits] using hok
    have hreload : key.control = true → key.code = .char 'r' →
        screen.fileExplorer.editorFind.ranges = [] ∧ reloadsEditable replies = true := by
      intro hcontrol hcode
      simpa [hcontrol, hcode] using hok
    obtain ⟨e, result, hkey, he⟩ := h.editKey hedits hreload
    rw [hkey, Option.map_some]
    refine ⟨_, rfl, ?_⟩
    cases result with
    | error err => exact he
    | ok u =>
      simp only [FilesScreen.withExplorer]
      split
      · exact he
      · split
        · exact .refreshFind he.cursor
        · split
          · exact he
          · split <;> exact he

theorem runReplaceInFile_invariant (h : EditorInvariant engine screen.fileExplorer) {text : String}
    (hok : replacesBehind engine screen.fileExplorer (FilesScreen.replacementOf text).2 = true) :
    ∃ screen', screen.runReplaceInFile engine text = some screen' ∧
      EditorInvariant engine screen'.fileExplorer := by
  obtain ⟨e, result, hreplaced, -, he⟩ := h.editorReplace (FilesScreen.replacementOf text).1 hok
  unfold FilesScreen.runReplaceInFile
  simp only [hreplaced, Option.map_some]
  refine ⟨_, rfl, ?_⟩
  cases result with
  | error err => exact he
  | ok u => exact he.withActive true

theorem handleReplaceKey_invariant (h : EditorInvariant engine screen.fileExplorer)
    {text : String} {key : FileKey} {replies : FileReplies}
    (hprompt : screen.promptInput = some text)
    (hok : keepsOffsets engine (some screen) (.key key replies) = true) :
    ∃ screen', screen.handleReplaceKey engine text key = some screen' ∧
      EditorInvariant engine screen'.fileExplorer := by
  unfold FilesScreen.handleReplaceKey
  split
  · exact ⟨_, rfl, h⟩
  · next henter =>
      simp only [keepsOffsets, hprompt, henter, bne_self_eq_false, Bool.false_or] at hok
      exact @runReplaceInFile_invariant engine { screen with promptInput := none } h _ hok
  · split
    · exact ⟨_, rfl, h⟩
    · exact ⟨_, rfl, h⟩

theorem filesStep_invariant (h : EditorInvariant engine screen.fileExplorer) {a : FilesAction}
    (hok : keepsOffsets engine (some screen) a = true) :
    ∃ screen', filesStep engine (some screen) a = some (some screen') ∧
      EditorInvariant engine screen'.fileExplorer := by
  suffices hstep : ∃ screen', (match a with
      | .key key replies => screen.handleKey engine key replies
      | .render => screen.render) = some screen' ∧ EditorInvariant engine screen'.fileExplorer by
    obtain ⟨screen', hstep, h'⟩ := hstep
    exact ⟨screen', congrArg some hstep, h'⟩
  cases a with
  | key key replies =>
    simp only [FilesScreen.handleKey]
    split
    · next text hprompt => exact handleReplaceKey_invariant h hprompt hok
    · next hprompt =>
        split
        · next hactive => exact handleFilesKey_invariant h hprompt hactive hok
        · split
          · refine ⟨_, rfl, ?_⟩
            have hstarted := h.startEdit
            unfold FilesScreen.report
            split <;> exact hstarted
          · exact ⟨_, rfl, h⟩
  | render =>
    simp only [FilesScreen.render]
    split
    · obtain ⟨front, rest, hcut, -, -⟩ := h.cursor.splitAtByte
      rw [min_eq_left h.cursor.le, hcut]
      exact ⟨screen, rfl, h⟩
    · exact ⟨screen, rfl, h⟩

end Runs

/-- In a run that keeps the offsets no step panics, the offsets are valid, and a replacement that
keeps them rewrites exactly what it should. -/
theorem filesEditor_offsetsValid (engine : RegexEngine) {screen : Option FilesScreen}
    (h : (filesEditor engine).ReachVia (fun screen a => keepsOffsets engine screen a = true)
      screen) :
    ∃ screen', screen = some screen' ∧ OffsetsValid engine screen'.fileExplorer ∧
      ∀ replacement all, replacesBehind engine screen'.fileExplorer all = true →
        ReplacesExactly engine screen'.fileExplorer replacement all := by
  have hinvariant : ∃ screen', screen = some screen' ∧
      EditorInvariant engine screen'.fileExplorer := by
    refine System.ReachVia.invariant (I := fun screen => ∃ screen', screen = some screen' ∧
      EditorInvariant engine screen'.fileExplorer) ?_ ?_ h
    · rintro _ ⟨preview, rfl⟩
      exact ⟨_, rfl, .of_nil (isCharBoundary_zero _) rfl⟩
    · rintro _ a s' - ⟨screen', rfl, hscreen⟩ hok hstep
      obtain ⟨next, hnext, hkept⟩ := filesStep_invariant hscreen hok
      have hsame : s' = some next := Option.some.inj (hstep.symm.trans hnext)
      exact ⟨next, hsame, hkept⟩
  obtain ⟨screen', rfl, hscreen⟩ := hinvariant
  refine ⟨screen', rfl, hscreen.toOffsetsValid, fun replacement all hok => ?_⟩
  obtain ⟨e', result, hreplaced, hrewrites, -⟩ := hscreen.editorReplace replacement hok
  exact ⟨e', result, hreplaced, hrewrites⟩

/-- The places of a character, counted from an offset. -/
def placesOf (c : Char) (offset : Nat) : List Char → List (Nat × Nat)
  | [] => []
  | d :: rest =>
    if d = c then (offset, offset + d.utf8Size) :: placesOf c (offset + d.utf8Size) rest
    else placesOf c (offset + d.utf8Size) rest

theorem le_of_mem_placesOf {c : Char} {offset : Nat} {text : List Char} {range : Nat × Nat}
    (h : range ∈ placesOf c offset text) : offset ≤ range.1 := by
  induction text generalizing offset with
  | nil => cases h
  | cons d rest ih =>
    rw [placesOf] at h
    split at h
    · rcases List.mem_cons.mp h with rfl | h
      · exact le_rfl
      · exact (Nat.le_add_right _ _).trans (ih h)
    · exact (Nat.le_add_right _ _).trans (ih h)

theorem isByteRange_of_mem_placesOf {c : Char} (front text : List Char) {range : Nat × Nat}
    (h : range ∈ placesOf c (byteLength front) text) : IsByteRange range (front ++ text) := by
  induction text generalizing front with
  | nil => cases h
  | cons d rest ih =>
    have hnext : byteLength (front ++ [d]) = byteLength front + d.utf8Size := by
      rw [byteLength_append, byteLength_cons, byteLength_nil, Nat.add_zero]
    have hsame : front ++ d :: rest = (front ++ [d]) ++ rest := by simp
    rw [placesOf, ← hnext] at h
    split at h
    · rcases List.mem_cons.mp h with rfl | h
      · exact ⟨front, [d], rest, rfl, rfl, by rw [hnext, byteLength_cons, byteLength_nil]; rfl⟩
      · exact hsame ▸ ih _ h
    · exact hsame ▸ ih _ h

theorem pairwise_placesOf (c : Char) (offset : Nat) (text : List Char) :
    (placesOf c offset text).Pairwise fun range range' => range.2 ≤ range'.1 := by
  induction text generalizing offset with
  | nil => exact .nil
  | cons d rest ih =>
    rw [placesOf]
    split
    · exact .cons (fun _ h => le_of_mem_placesOf h) (ih _)
    · exact ih _

/-- An engine for queries of one character. -/
def charEngine : RegexEngine where
  Regex := Char
  escape := id
  build
    | [c], _ => some c
    | _, _ => none
  findIter c text := placesOf c 0 text
  isRange _ text _ h := isByteRange_of_mem_placesOf [] text h
  ordered c text := pairwise_placesOf c 0 text

def plainKey (code : KeyCode) : FilesAction :=
  .key ⟨⟨code, false, false⟩, false⟩ ⟨.error "", .error ""⟩

def controlKey (ch : Char) : FilesAction :=
  .key ⟨⟨.char ch, true, false⟩, false⟩ ⟨.error "", .error ""⟩

/-- A match is found, selected and replaced. -/
theorem filesEditor_offsetsValid_replaced :
    ∃ screen, some (FilesScreen.mk
        { preview := { path := some "a.txt", content := ['a', 'x'], dirty := true }
          editActive := true
          editCursor := 1
          editorFind := { query := ['b'] } } none "replaced 1 of 1 matches" none) = some screen ∧
      OffsetsValid charEngine screen.fileExplorer ∧
      ∀ replacement all, replacesBehind charEngine screen.fileExplorer all = true →
        ReplacesExactly charEngine screen.fileExplorer replacement all := by
  have hrun : (filesEditor charEngine).runVia
      (fun screen a => keepsOffsets charEngine screen a = true)
      (some ⟨{ preview := { path := some "a.txt", content := ['a', 'b'] } }, none, "", none⟩)
      [plainKey (.char 'e'), controlKey 'f', plainKey (.char 'b'), plainKey .enter, plainKey .esc,
        controlKey 'h', plainKey (.char 'x'), plainKey .enter] =
      some (some ⟨{ preview := { path := some "a.txt", content := ['a', 'x'], dirty := true }
                    editActive := true
                    editCursor := 1
                    editorFind := { query := ['b'] } }, none, "replaced 1 of 1 matches", none⟩) := by
    decide +kernel
  exact filesEditor_offsetsValid charEngine (.runVia (.init ⟨_, rfl⟩) hrun)

/-- A match that is deleted while its range is stored: the replacement panics. -/
theorem filesEditor_panics :
    ∃ screen, (filesEditor charEngine).Reachable screen ∧
      ¬ ∃ screen', screen = some screen' ∧ OffsetsValid charEngine screen'.fileExplorer := by
  have hrun : (filesEditor charEngine).run
      (some ⟨{ preview := { path := some "a.txt", content := ['a', 'b'] } }, none, "", none⟩)
      [plainKey (.char 'e'), controlKey 'f', plainKey (.char 'b'), plainKey .esc,
        plainKey .backspace, controlKey 'h', plainKey .enter] = some none := by decide +kernel
  exact ⟨none, .runVia (.init ⟨_, rfl⟩) hrun, fun ⟨_, hlive, _⟩ => nomatch hlive⟩

end HerdrWebui.Tui
