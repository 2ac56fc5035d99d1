import HerdrWebui.Tui.FileEditor

/-!
The file explorer of the Files screen (`panels/files`): the tree with its filter, the search of
file contents, the file that is shown beside them, and the keys of the screen.

The answers of the server to the round trips of one key are in its `FilesReplies`. Where the rows
are scrolled to, the outline of a markdown file, and what is sent with a search are left out.
-/

namespace HerdrWebui.Tui

/-- What `/` searches. -/
inductive SearchKind where
  | file
  | dir
  | content
  deriving DecidableEq

def SearchKind.next : SearchKind → SearchKind
  | .file => .dir
  | .dir => .content
  | .content => .file

structure FileEntry where
  name : String
  path : String
  isDir : Bool
  level : Nat := 0
  expanded : Bool := false
  deriving DecidableEq

/-- A file with matches, and how many rows its chunks have. -/
structure ContentSearchFile where
  path : String
  rows : Nat
  deriving DecidableEq

inductive ContentRow where
  | file (index : Nat)
  | line (file : Nat)
  deriving DecidableEq

structure ContentSearchState where
  query : String := ""
  files : List ContentSearchFile := []
  expanded : List Bool := []
  done : Bool := true
  selected : Nat := 0
  deriving DecidableEq

namespace ContentSearchState

variable (state : ContentSearchState)

def hasResults : Bool := trim state.query != "" && !state.files.isEmpty

def clearResults : ContentSearchState := { query := state.query }

/-- Files are shown expanded until they are toggled. -/
def isExpanded (index : Nat) : Bool := (state.expanded[index]?).getD true

def contentRows : List ContentRow :=
  state.files.zipIdx.flatMap fun file =>
    .file file.2 :: if state.isExpanded file.2 then List.replicate file.1.rows (.line file.2) else []

/-- `Vec::resize` of the map of expanded files. -/
def resized (count : Nat) : List Bool :=
  (state.expanded ++ List.replicate (count - state.expanded.length) true).take count

def toggleContentFile (index : Nat) : ContentSearchState :=
  if index < state.files.length then
    let expanded :=
      if state.expanded.length < state.files.length then state.resized state.files.length
      else state.expanded
    { state with expanded := expanded.set index !state.isExpanded index }
  else state

/-- The path of the match under the cursor. -/
def selectedMatch : Option String :=
  match state.contentRows[state.selected]? with
  | some (.line file) => (state.files[file]?).map (·.path)
  | _ => none

end ContentSearchState

/-- `file_explorer`. -/
structure FilesPanel extends FileExplorer where
  cwd : String
  rootPath : String := ""
  entries : List FileEntry := []
  selected : Nat := 0
  filter : String := ""
  filterActive : Bool := false
  searchMode : Bool := false
  searchKind : SearchKind := .file
  contentSearch : ContentSearchState := {}
  recentPreviews : List String := []
  deriving DecidableEq

/-- What the server answers, should a key ask it: nothing where a request fails. A directory is
expanded at most once by a key. -/
structure FilesReplies extends FileReplies where
  listing : Option (List FileEntry)
  children : String → Option (List FileEntry)
  /-- The files of a page of matches, and whether it was cut off. -/
  content : Option (List ContentSearchFile × Bool)
  /-- A file is created, renamed or deleted. -/
  accepted : Bool

def parentPath (path : String) : String :=
  String.ofList (path.toList.rdropWhile (· != '/')).dropLast

def trimStartSlashes (path : String) : String :=
  String.ofList (path.toList.dropWhile (· == '/'))

def joinRootPath (root name : String) : String :=
  let name := trimStartSlashes (trim name)
  if name = "" then ""
  else if root = "" then name
  else String.ofList (root.toList.rdropWhile (· == '/')) ++ "/" ++ name

def recentPreviewsMax : Nat := 12

namespace FilesPanel

def new (cwd : String) : FilesPanel := { preview := {}, cwd }

variable (e : FilesPanel)

/-- The rows of the content search are shown. -/
def showsContent : Bool := e.searchMode && e.searchKind == .content

def refresh (listing : Option (List FileEntry)) : Option FilesPanel :=
  if e.showsContent then some e
  else
    listing.map fun entries => { e with entries, selected := min e.selected (entries.length - 1) }

/-- A refresh that fails shows in the error slot alone. -/
def tryRefresh (listing : Option (List FileEntry)) : FilesPanel := (e.refresh listing).getD e

def selectedEntry : Option FileEntry := e.entries[e.selected]?

/-- The row under the cursor becomes `entry` with `below` under it. -/
def withRow (entry : FileEntry) (below : List FileEntry) : FilesPanel :=
  { e with entries := e.entries.take e.selected ++ entry :: below }

/-- `toggle_expand`: whether the row is a directory. -/
def toggleExpand (children : String → Option (List FileEntry)) : Option (FilesPanel × Bool) :=
  match e.selectedEntry with
  | none => some (e, false)
  | some entry =>
    let below := e.entries.drop (e.selected + 1)
    if !entry.isDir then some (e, false)
    else if entry.expanded then
      some (e.withRow { entry with expanded := false }
        (below.dropWhile fun next => entry.level < next.level), true)
    else
      (children entry.path).map fun children =>
        (e.withRow { entry with expanded := true }
          (children.map ({ · with level := entry.level + 1 }) ++ below), true)

/-- `enter_directory`; none where the row is no directory. -/
def enterDirectory : Option FilesPanel :=
  (e.selectedEntry.filter (·.isDir)).map fun entry =>
    { e with rootPath := entry.path, entries := [], selected := 0, searchMode := false, preview := {} }

/-- `go_up`; none at the root of the workspace. -/
def goUp : Option FilesPanel :=
  if e.rootPath = "" then none
  else some { e with rootPath := parentPath e.rootPath, entries := [], selected := 0, preview := {} }

def openPreviewPath (read : Except String Json) (path : String) : Option FilesPanel :=
  match read with
  | .error _ => none
  | .ok data =>
    some
      { e with
        toFileExplorer := e.toFileExplorer.openPreviewPath data path
        recentPreviews :=
          (path :: e.recentPreviews.filter (· != path)).take recentPreviewsMax }

def refuses (path : String) : Bool := e.preview.dirty && e.preview.path != some path

/-- `open_preview`; none where it reports an error. -/
def openPreview (replies : FilesReplies) : Option FilesPanel :=
  match e.selectedEntry with
  | none => some e
  | some entry =>
    if entry.isDir then (e.toggleExpand replies.children).map (·.1)
    else if e.refuses entry.path then none
    else e.openPreviewPath replies.read entry.path

def openPreviewAtLine (read : Except String Json) (path : String) : Option FilesPanel :=
  if e.refuses path then none else e.openPreviewPath read path

/-- `cycle_recent_preview`. A read that fails leaves the list rotated. -/
def cycleRecentPreview (read : Except String Json) : FilesPanel :=
  match e.recentPreviews with
  | front :: next :: rest =>
    if e.preview.dirty then e
    else
      let e := { e with recentPreviews := (next :: next :: rest ++ [front]).eraseDups }
      (e.openPreviewPath read next).getD e
  | _ => e

def moveSelection (delta : Int) : FilesPanel :=
  { e with selected := moveIndex e.selected e.entries.length delta }

def commitFilter : FilesPanel :=
  let searchMode := trim e.filter != ""
  { e with filterActive := false, searchMode, selected := if searchMode then 0 else e.selected }

def cycleSearchKind : FilesPanel :=
  let searchKind := e.searchKind.next
  { e with
    searchKind
    contentSearch := e.contentSearch.clearResults
    selected := if e.searchMode && searchKind != .content then 0 else e.selected }

def selectPath (path : String) : FilesPanel :=
  { e with selected := (e.entries.findIdx? (·.path == path)).getD e.selected }

/-- `create_file`; none where it reports an error. -/
def createFile (replies : FilesReplies) (name : String) : Option FilesPanel :=
  let path := joinRootPath e.rootPath name
  if path = "" ∨ !replies.accepted then none
  else (e.refresh replies.listing).map (·.selectPath path)

def createDirectory (replies : FilesReplies) (name : String) : Option FilesPanel :=
  if joinRootPath e.rootPath name = "" ∨ !replies.accepted then none
  else e.refresh replies.listing

/-- The directories above a file are expanded one after another. A directory that is not in the
tree, but has others below it that are, was joined with the next one by the server. -/
def revealAncestors (children : String → Option (List FileEntry)) (above : String) :
    List String → FilesPanel → FilesPanel × Bool
  | [], e => (e, true)
  | part :: parts, e =>
    let dir := if above = "" then part else above ++ "/" ++ part
    match e.entries.findIdx? fun entry => entry.path == dir && entry.isDir with
    | some index =>
      let e := { e with selected := index }
      if e.selectedEntry.any (·.expanded) then revealAncestors children dir parts e
      else
        match e.toggleExpand children with
        | none => (e, false)
        | some (e, _) => revealAncestors children dir parts e
    | none =>
      if e.entries.any fun entry => entry.isDir && hasPrefix (dir ++ "/") entry.path then
        revealAncestors children dir parts e
      else (e, false)

def revealPath (children : String → Option (List FileEntry)) (path : String) : FilesPanel :=
  let clean := trimStartSlashes path
  if clean = "" then e
  else
    let found := revealAncestors children "" (splitStr "/" clean).dropLast e
    if found.2 then found.1.selectPath clean else found.1

def runContentSearch (content : Option (List ContentSearchFile × Bool)) (append : Bool) :
    FilesPanel :=
  let query := trim e.filter
  let state := { e.contentSearch with query }
  if query = "" then { e with contentSearch := state.clearResults }
  else
    match content with
    | none => { e with contentSearch := state }
    | some (files, truncated) =>
      { e with
        contentSearch :=
          let found := if append then state.files ++ files else files
          { state with
            files := found
            expanded :=
              if append then state.resized found.length else List.replicate found.length true
            done := !truncated || files.isEmpty
            selected := 0 } }

/-- `handle_content_search_key`. -/
def contentSearchKey (key : KeyEvent) (replies : FilesReplies) : FilesPanel :=
  let state := e.contentSearch
  let rows := state.contentRows
  let moved (delta : Int) : FilesPanel :=
    { e with contentSearch := { state with selected := moveIndex state.selected rows.length delta } }
  if key.code = .down ∨ isChar key ['j'] then moved 1
  else if key.code = .up ∨ isChar key ['k'] then moved (-1)
  else if key.code = .enter then
    match rows[state.selected]? with
    | some (.file index) => { e with contentSearch := state.toggleContentFile index }
    | some (.line _) =>
      (state.selectedMatch.bind (e.openPreviewAtLine replies.read)).getD e
    | none => e
  else if isChar key ['+'] then
    if state.done then e else e.runContentSearch replies.content true
  else if isChar key ['A', 'X'] then e.runContentSearch replies.content false
  else if key.code = .esc then
    { e with contentSearch := state.clearResults, searchMode := false, filter := "" }.tryRefresh
      replies.listing
  else e

/-- The keys of `handle_files_key` while the filter is typed. One that closes the filter searches. -/
def filterKey (key : KeyEvent) (replies : FilesReplies) : FilesPanel :=
  let typed : FilesPanel :=
    match key.code with
    | .enter => e.commitFilter
    | .esc => { e with filterActive := false, filter := "" }
    | .backspace => { e with filter := TuiView.popChar e.filter }
    | .char ch => { e with filter := e.filter.push ch }
    | _ => e
  if typed.filterActive then typed
  else if typed.showsContent then typed.runContentSearch replies.content false
  else typed.tryRefresh replies.listing

/-- What a key of the tree asks for. -/
inductive TreeCommand where
  | move (delta : Int)
  | toggle
  | enter
  | up
  | refresh
  | log
  | cycle
  | reveal
  | filter
  | kind
  | create
  | createDirectory
  | edit
  | rename
  | delete
  | help
  | leave
  deriving DecidableEq

/-- The arms of `handle_files_key` for the tree. -/
def treeCommand (key : KeyEvent) : Option TreeCommand :=
  match key.code with
  | .down => some (.move 1)
  | .up => some (.move (-1))
  | .enter => some .toggle
  | .right => some .enter
  | .left => some .up
  | .tab => some .cycle
  | .esc => some .leave
  | .char ch =>
    match ch with
    | 'j' => some (.move 1)
    | 'k' => some (.move (-1))
    | 'l' => some .enter
    | 'h' | 'u' => some .up
    | 'r' => some .refresh
    | 'L' => some .log
    | 'w' => some .reveal
    | '/' => some .filter
    | 't' => some .kind
    | 'a' => some .create
    | 'A' => some .createDirectory
    | 'e' => some .edit
    | 'R' => some .rename
    | 'x' => some .delete
    | '?' => some .help
    | 'q' => some .leave
    | _ => none
  | _ => none

/-- The name of the row, where nothing unsaved is shown that the file might be. -/
def nameToChange : Option String :=
  if e.preview.dirty && e.preview.path.isSome then none
  else (e.selectedEntry.map (·.name)).filter (· != "")

/-- A command of the tree, with what the interface makes of it. `gitFile` is the file that is
selected in the git panel. -/
def runTree (replies : FilesReplies) (gitFile : Option String) :
    TreeCommand → FilesPanel × PanelOutcome
  | .move delta => (e.moveSelection delta, .nothing)
  | .toggle =>
    match e.toggleExpand replies.children with
    | none => (e, .nothing)
    | some (e, true) => (e, .nothing)
    | some (e, false) => ((e.openPreview replies).getD e, .nothing)
  | .enter =>
    match e.enterDirectory with
    | some e => (e.tryRefresh replies.listing, .nothing)
    | none =>
      match e.toggleExpand replies.children with
      | some (e, true) => (e.tryRefresh replies.listing, .nothing)
      | _ => (e, .nothing)
  | .up => ((e.goUp.map (·.tryRefresh replies.listing)).getD e, .nothing)
  | .refresh => (e.tryRefresh replies.listing, .nothing)
  | .log => (e, if e.selectedEntry.any (!·.isDir) then .git else .nothing)
  | .cycle => (e.cycleRecentPreview replies.read, .nothing)
  | .reveal => ((gitFile.map (e.revealPath replies.children)).getD e, .nothing)
  | .filter => ({ e with filterActive := true }, .nothing)
  | .kind => (e.cycleSearchKind, .nothing)
  | .create => (e, .prompt ⟨.createFile, rfl⟩ "")
  | .createDirectory => (e, .prompt ⟨.createDirectory, rfl⟩ "")
  | .edit => ({ e with toFileExplorer := e.toFileExplorer.startEdit.1 }, .nothing)
  | .rename => (e, e.nameToChange.elim .nothing fun name => .prompt ⟨.renameFile, rfl⟩ name)
  | .delete => (e, e.nameToChange.elim .nothing fun _ => .prompt ⟨.confirmDeleteFile, rfl⟩ "")
  | .help => (e, .help)
  | .leave => (e, .terminal)

def treeKey (key : KeyEvent) (replies : FilesReplies) (gitFile : Option String) :
    FilesPanel × PanelOutcome :=
  (treeCommand key).elim (e, .nothing) (e.runTree replies gitFile)

def reloads (key : FileKey) (replies : FilesReplies) : Bool :=
  !e.editorFind.active && key.control && key.code == .char 'r' && replies.read.isOk

/-- The keys of `handle_files_key` while the file is edited. None where the editor panics. -/
def editorKey (engine : RegexEngine) (key : FileKey) (replies : FilesReplies) :
    Option (FilesPanel × PanelOutcome) :=
  (FilesScreen.handleFilesKey engine ⟨e.toFileExplorer, none, "", none⟩ key
      replies.toFileReplies).map fun screen =>
    ({ e with
        toFileExplorer := screen.fileExplorer
        recentPreviews :=
          match e.preview.path with
          | none => e.recentPreviews
          | some path =>
            if e.reloads key replies then
              (path :: e.recentPreviews.filter (· != path)).take recentPreviewsMax
            else e.recentPreviews },
      if screen.promptInput.isSome then .prompt ⟨.replaceInFile, rfl⟩ "" else .nothing)

def replaceInFile (engine : RegexEngine) (text : String) : Option FilesPanel :=
  (FilesScreen.runReplaceInFile engine ⟨e.toFileExplorer, none, "", none⟩ text).map fun screen =>
    { e with toFileExplorer := screen.fileExplorer }

/-- The keys go to the filter, the matches or the editor, and not to the tree. -/
def captures : Bool :=
  e.editActive || e.filterActive || (e.showsContent && e.contentSearch.hasResults)

/-- Only the rows of the tree are others. -/
structure OnlyRows (e e' : FilesPanel) : Prop where
  editor : e'.toFileExplorer = e.toFileExplorer
  captures : e'.captures = e.captures

theorem OnlyRows.refl (e : FilesPanel) : e.OnlyRows e := ⟨rfl, rfl⟩

theorem OnlyRows.trans {e e' e'' : FilesPanel} (h : e.OnlyRows e') (h' : e'.OnlyRows e'') :
    e.OnlyRows e'' := ⟨h'.editor.trans h.editor, h'.captures.trans h.captures⟩

variable {e}

theorem onlyRows_refresh {listing : Option (List FileEntry)} {e' : FilesPanel}
    (h : e.refresh listing = some e') : e.OnlyRows e' := by
  unfold refresh at h
  split at h
  · obtain rfl := Option.some.inj h
    exact .refl e
  · obtain ⟨entries, -, rfl⟩ := Option.map_eq_some_iff.mp h
    exact ⟨rfl, rfl⟩

theorem onlyRows_tryRefresh (listing : Option (List FileEntry)) :
    e.OnlyRows (e.tryRefresh listing) := by
  unfold tryRefresh
  cases h : e.refresh listing with
  | none => exact .refl e
  | some e' => exact onlyRows_refresh h

theorem onlyRows_toggleExpand {children : String → Option (List FileEntry)}
    {turn : FilesPanel × Bool} (h : e.toggleExpand children = some turn) :
    e.OnlyRows turn.1 := by
  unfold toggleExpand at h
  split at h
  · obtain rfl := Option.some.inj h
    exact .refl e
  · dsimp only at h
    split at h
    · obtain rfl := Option.some.inj h
      exact .refl e
    split at h
    · obtain rfl := Option.some.inj h
      exact ⟨rfl, rfl⟩
    · obtain ⟨children, -, rfl⟩ := Option.map_eq_some_iff.mp h
      exact ⟨rfl, rfl⟩

theorem toggleExpand_eq_false {children : String → Option (List FileEntry)} {e' : FilesPanel}
    (h : e.toggleExpand children = some (e', false)) :
    e' = e ∧ ∀ entry, e.selectedEntry = some entry → entry.isDir = false := by
  unfold toggleExpand at h
  split at h
  · next hnone => simp_all
  · next entry hentry =>
      dsimp only at h
      split at h
      · next hdir => simp_all
      split at h
      · simp at h
      · simp at h

theorem onlyRows_selectPath (path : String) : e.OnlyRows (e.selectPath path) := ⟨rfl, rfl⟩

theorem onlyRows_createFile {replies : FilesReplies} {name : String} {e' : FilesPanel}
    (h : e.createFile replies name = some e') : e.OnlyRows e' := by
  unfold createFile at h
  dsimp only at h
  split at h
  · cases h
  · obtain ⟨listed, hlisted, rfl⟩ := Option.map_eq_some_iff.mp h
    exact (onlyRows_refresh hlisted).trans (onlyRows_selectPath _)

theorem onlyRows_createDirectory {replies : FilesReplies} {name : String} :
    e.OnlyRows ((e.createDirectory replies name).getD e) := by
  unfold createDirectory
  split
  · exact .refl e
  · exact onlyRows_tryRefresh replies.listing

theorem onlyRows_revealAncestors (children : String → Option (List FileEntry)) (above : String)
    (parts : List String) (e : FilesPanel) :
    e.OnlyRows (revealAncestors children above parts e).1 := by
  induction parts generalizing above e with
  | nil => exact .refl e
  | cons part parts ih =>
    rw [revealAncestors]
    dsimp only
    generalize (if above = "" then part else above ++ "/" ++ part) = dir
    have hrows (index : Nat) : e.OnlyRows { e with selected := index } := ⟨rfl, rfl⟩
    split
    · next index _ =>
        split
        · exact (hrows index).trans (ih _ _)
        · split
          · exact hrows index
          · next hexpand =>
              exact ((hrows index).trans (onlyRows_toggleExpand hexpand)).trans (ih _ _)
    · split
      · exact ih _ _
      · exact .refl e

theorem onlyRows_revealPath (children : String → Option (List FileEntry)) (path : String) :
    e.OnlyRows (e.revealPath children path) := by
  unfold revealPath
  dsimp only
  split
  · exact .refl e
  · split
    · exact (onlyRows_revealAncestors _ _ _ e).trans (onlyRows_selectPath _)
    · exact onlyRows_revealAncestors _ _ _ e

end FilesPanel

/-- The mode and the find bar of the editor stay, and so does the file, unless one without edits
is shown in its place. -/
structure FileExplorer.Shows (e e' : FileExplorer) : Prop where
  edit : e'.editActive = e.editActive
  find : e'.editorFind = e.editorFind
  clean : e'.preview = e.preview ∨ e'.preview.dirty = false
  path : e.editActive = true → e.preview.path.isSome = true → e'.preview.path.isSome = true

theorem FileExplorer.Shows.refl (e : FileExplorer) : e.Shows e := ⟨rfl, rfl, .inl rfl, fun _ => id⟩

theorem FileExplorer.Shows.trans {e e' e'' : FileExplorer} (h : e.Shows e') (h' : e'.Shows e'') :
    e.Shows e'' := by
  refine ⟨h'.edit.trans h.edit, h'.find.trans h.find, ?_, fun hedit hpath => ?_⟩
  · rcases h'.clean with hsame | hclean
    · rw [hsame]
      exact h.clean
    · exact .inr hclean
  · exact h'.path (h.edit.trans hedit) (h.path hedit hpath)

namespace FilesPanel

def rereads (e : FilesPanel) (read : Except String Json) (path : String) : Bool :=
  e.preview.path == some path && read.isOk

variable {e : FilesPanel}

theorem OnlyRows.shows {e' : FilesPanel} (h : e.OnlyRows e') :
    e.toFileExplorer.Shows e'.toFileExplorer := by
  rw [h.editor]
  exact .refl _

theorem OnlyRows.preview {e' : FilesPanel} (h : e.OnlyRows e') : e'.preview = e.preview :=
  congrArg FileExplorer.preview h.editor

theorem shows_openPreviewPath {read : Except String Json} {path : String} {e' : FilesPanel}
    (h : e.openPreviewPath read path = some e') :
    e.toFileExplorer.Shows e'.toFileExplorer ∧ e'.captures = e.captures := by
  unfold openPreviewPath at h
  split at h
  · cases h
  · obtain rfl := Option.some.inj h
    exact ⟨⟨rfl, rfl, .inr rfl, fun _ _ => rfl⟩, rfl⟩

theorem shows_openPreviewAtLine (read : Except String Json) (path : String) :
    e.toFileExplorer.Shows ((e.openPreviewAtLine read path).getD e).toFileExplorer ∧
      ((e.openPreviewAtLine read path).getD e).captures = e.captures := by
  cases h : e.openPreviewAtLine read path with
  | none => exact ⟨.refl _, rfl⟩
  | some e' =>
    unfold openPreviewAtLine at h
    split at h
    · cases h
    · exact shows_openPreviewPath h

theorem shows_openPreview (replies : FilesReplies) :
    e.toFileExplorer.Shows ((e.openPreview replies).getD e).toFileExplorer ∧
      ((e.openPreview replies).getD e).captures = e.captures := by
  cases h : e.openPreview replies with
  | none => exact ⟨.refl _, rfl⟩
  | some e' =>
    unfold openPreview at h
    split at h
    · obtain rfl := Option.some.inj h
      exact ⟨.refl _, rfl⟩
    split at h
    · obtain ⟨turn, hexpand, rfl⟩ := Option.map_eq_some_iff.mp h
      have hrows := onlyRows_toggleExpand hexpand
      exact ⟨hrows.shows, hrows.captures⟩
    split at h
    · cases h
    · exact shows_openPreviewPath h

theorem shows_cycleRecentPreview (read : Except String Json) :
    e.toFileExplorer.Shows (e.cycleRecentPreview read).toFileExplorer := by
  unfold cycleRecentPreview
  split
  · split
    · exact .refl _
    · dsimp only
      generalize hrotated : ({ e with recentPreviews := _ } : FilesPanel) = rotated
      have hsame : rotated.toFileExplorer = e.toFileExplorer := by rw [← hrotated]
      rw [← hsame]
      cases h : rotated.openPreviewPath read _ with
      | none => exact .refl _
      | some e' => exact (shows_openPreviewPath h).1
  · exact .refl _

theorem shows_runContentSearch (content : Option (List ContentSearchFile × Bool)) (append : Bool) :
    (e.runContentSearch content append).toFileExplorer = e.toFileExplorer := by
  unfold runContentSearch
  dsimp only
  split
  · rfl
  · split <;> rfl

theorem shows_filterKey (key : KeyEvent) (replies : FilesReplies) :
    (e.filterKey key replies).toFileExplorer = e.toFileExplorer := by
  unfold filterKey
  dsimp only
  generalize htyped : (match key.code with
    | .enter => e.commitFilter
    | .esc => { e with filterActive := false, filter := "" }
    | .backspace => { e with filter := TuiView.popChar e.filter }
    | .char ch => { e with filter := e.filter.push ch }
    | _ => e) = typed
  have hsame : typed.toFileExplorer = e.toFileExplorer := by
    rw [← htyped]
    split <;> rfl
  split
  · exact hsame
  · split
    · exact (shows_runContentSearch _ _).trans hsame
    · exact (onlyRows_tryRefresh _).editor.trans hsame

theorem contentSearchKey_cases (key : KeyEvent) (replies : FilesReplies) :
    (e.contentSearchKey key replies).toFileExplorer = e.toFileExplorer ∨
      key.code = .enter ∧ ∃ path, e.contentSearch.selectedMatch = some path ∧
        e.contentSearchKey key replies = (e.openPreviewAtLine replies.read path).getD e := by
  unfold contentSearchKey
  dsimp only
  split
  · exact .inl rfl
  split
  · exact .inl rfl
  split
  · next hcode =>
      cases hrow : e.contentSearch.contentRows[e.contentSearch.selected]? with
      | none => exact .inl rfl
      | some row =>
        cases row with
        | file index => exact .inl rfl
        | line file =>
          dsimp only
          cases hmatch : e.contentSearch.selectedMatch with
          | none => exact .inl rfl
          | some path => exact .inr ⟨hcode, path, rfl, rfl⟩
  split
  · split
    · exact .inl rfl
    · exact .inl (shows_runContentSearch _ _)
  split
  · exact .inl (shows_runContentSearch _ _)
  split
  · exact .inl (onlyRows_tryRefresh _).editor
  · exact .inl rfl

theorem shows_enterDirectory {e' : FilesPanel} (hedit : e.editActive = false)
    (h : e.enterDirectory = some e') : e.toFileExplorer.Shows e'.toFileExplorer := by
  obtain ⟨entry, -, rfl⟩ := Option.map_eq_some_iff.mp h
  refine ⟨rfl, rfl, .inr rfl, fun hactive => ?_⟩
  rw [hedit] at hactive
  cases hactive

theorem shows_goUp {e' : FilesPanel} (hedit : e.editActive = false) (h : e.goUp = some e') :
    e.toFileExplorer.Shows e'.toFileExplorer := by
  unfold goUp at h
  split at h
  · cases h
  · obtain rfl := Option.some.inj h
    refine ⟨rfl, rfl, .inr rfl, fun hactive => ?_⟩
    rw [hedit] at hactive
    cases hactive

theorem shows_runTree (hedit : e.editActive = false) (replies : FilesReplies)
    (gitFile : Option String) {command : TreeCommand} (hcommand : command ≠ .edit) :
    e.toFileExplorer.Shows (e.runTree replies gitFile command).1.toFileExplorer := by
  cases command with
  | edit => exact absurd rfl hcommand
  | toggle =>
    simp only [runTree]
    split
    · exact .refl _
    · next hexpand => exact (onlyRows_toggleExpand hexpand).shows
    · next hexpand =>
        rw [(toggleExpand_eq_false hexpand).1]
        exact (shows_openPreview replies).1
  | enter =>
    simp only [runTree]
    split
    · next hdir =>
        exact (shows_enterDirectory hedit hdir).trans (onlyRows_tryRefresh _).shows
    · split
      · next hexpand =>
          exact (onlyRows_toggleExpand hexpand).shows.trans (onlyRows_tryRefresh _).shows
      · exact .refl _
  | up =>
    simp only [runTree]
    cases hup : e.goUp with
    | none => exact .refl _
    | some e' => exact (shows_goUp hedit hup).trans (onlyRows_tryRefresh _).shows
  | refresh => exact (onlyRows_tryRefresh _).shows
  | cycle => exact shows_cycleRecentPreview replies.read
  | reveal =>
    simp only [runTree]
    cases gitFile with
    | none => exact .refl _
    | some file => exact (onlyRows_revealPath _ file).shows
  | move _ | log | filter | kind | create | createDirectory | rename | delete | help | leave =>
    exact .refl _

/-- The row under the cursor is the file that is shown, and is read again. -/
def reopens (e : FilesPanel) (read : Except String Json) : Bool :=
  e.selectedEntry.any fun entry => !entry.isDir && e.rereads read entry.path

/-- The commands of the tree that drop edits. -/
def drops (e : FilesPanel) (read : Except String Json) : TreeCommand → Bool
  | .enter => e.selectedEntry.any (·.isDir)
  | .up => e.rootPath != ""
  | .toggle => e.reopens read
  | _ => false

theorem preview_openPreviewAtLine (hdirty : e.preview.dirty = true) {read : Except String Json}
    {path : String} (hkeep : e.rereads read path = false) :
    ((e.openPreviewAtLine read path).getD e).preview = e.preview := by
  unfold openPreviewAtLine
  split
  · rfl
  · next hsame =>
      have hpath : e.preview.path = some path := by simpa [refuses, hdirty] using hsame
      unfold openPreviewPath
      cases read with
      | error _ => rfl
      | ok data => simp [rereads, hpath, Except.isOk, Except.toBool] at hkeep

theorem preview_openPreview (hdirty : e.preview.dirty = true) {replies : FilesReplies}
    (hkeep : e.reopens replies.read = false) :
    ((e.openPreview replies).getD e).preview = e.preview := by
  unfold openPreview
  cases hentry : e.selectedEntry with
  | none => rfl
  | some entry =>
    dsimp only
    split
    · cases hexpand : e.toggleExpand replies.children with
      | none => rfl
      | some turn => exact (onlyRows_toggleExpand hexpand).preview
    · next hdir =>
        apply preview_openPreviewAtLine hdirty
        simpa [reopens, hentry, hdir] using hkeep

theorem preview_runTree (hdirty : e.preview.dirty = true) {replies : FilesReplies}
    (gitFile : Option String) {command : TreeCommand} (hcommand : command ≠ .edit)
    (hkeep : e.drops replies.read command = false) :
    (e.runTree replies gitFile command).1.preview = e.preview := by
  cases command with
  | edit => exact absurd rfl hcommand
  | toggle =>
    simp only [runTree]
    split
    · rfl
    · next hexpand => exact (onlyRows_toggleExpand hexpand).preview
    · next hexpand =>
        rw [(toggleExpand_eq_false hexpand).1]
        exact preview_openPreview hdirty hkeep
  | enter =>
    have hnone : e.enterDirectory = none := by
      unfold enterDirectory
      cases hentry : e.selectedEntry with
      | none => rfl
      | some entry => simpa [drops, hentry, Option.filter_some] using hkeep
    simp only [runTree, hnone]
    split
    · next hexpand =>
        exact ((onlyRows_toggleExpand hexpand).trans (onlyRows_tryRefresh _)).preview
    · rfl
  | up =>
    have hroot : e.goUp = none := by simpa [goUp, drops] using hkeep
    simp [runTree, hroot]
  | refresh => exact (onlyRows_tryRefresh _).preview
  | cycle =>
    simp only [runTree, cycleRecentPreview]
    split
    · rw [if_pos hdirty]
    · rfl
  | reveal =>
    simp only [runTree]
    cases gitFile with
    | none => rfl
    | some file => exact (onlyRows_revealPath _ file).preview
  | move _ | log | filter | kind | create | createDirectory | rename | delete | help | leave => rfl

end FilesPanel

end HerdrWebui.Tui
