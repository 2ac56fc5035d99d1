import HerdrWebui.Tui.PanelRuns

/-!
Edits that are not saved, over runs of the interface: which keys keep them, and which drop them
without a question.
-/

namespace HerdrWebui.Tui

open Concurrency

namespace FileExplorer

/-- A replacement has an editor, or nothing to replace. -/
def Ready (e : FileExplorer) : Prop := e.editActive = true ∨ e.editorFind.ranges = []

/-- Edits stay, unless they are dropped. -/
structure Passes (drops : Bool) (e e' : FileExplorer) : Prop where
  sound : e.Sound → e'.Sound
  ready : e.Ready → e'.Ready
  file : e'.preview = e.preview ∨
    e'.preview.dirty = false ∧ (e.preview.dirty = true → drops = true)

def Turned (turn : EditTurn) (drops : Bool) (e e' : FileExplorer) : Prop :=
  match turn with
  | .types => e'.preview.path = e.preview.path
  | .ends => e'.preview.dirty = false
  | .passes =>
    e'.preview = e.preview ∨ e'.preview.dirty = false ∧ (e.preview.dirty = true → drops = true)

variable {drops : Bool} {e e' e'' : FileExplorer}

theorem Passes.refl (e : FileExplorer) : e.Passes drops e := ⟨id, id, .inl rfl⟩

theorem Passes.trans (h : e.Passes drops e') (h' : e'.Passes drops e'') : e.Passes drops e'' := by
  refine ⟨h'.sound ∘ h.sound, h'.ready ∘ h.ready, ?_⟩
  rcases h'.file with hsame | ⟨hclean, hdrops⟩
  · rw [hsame]
    exact h.file
  · refine .inr ⟨hclean, fun hdirty => ?_⟩
    rcases h.file with hsame | ⟨-, hdrops'⟩
    · exact hdrops (hsame ▸ hdirty)
    · exact hdrops' hdirty

theorem Shows.passes (h : e.Shows e')
    (hkept : e.preview.dirty = true → drops = false → e'.preview = e.preview) :
    e.Passes drops e' := by
  refine ⟨fun hsound => hsound.shows h, ?_, ?_⟩
  · simp [Ready, h.edit, h.find]
  · rcases h.clean with hsame | hclean
    · exact .inl hsame
    cases hdirty : e.preview.dirty with
    | false => exact .inr ⟨hclean, fun hfalse => absurd hfalse Bool.false_ne_true⟩
    | true =>
      cases hdrops : drops with
      | false => exact .inl (hkept hdirty hdrops)
      | true => exact .inr ⟨hclean, fun _ => rfl⟩

theorem passes_startEdit (e : FileExplorer) : e.Passes drops e.startEdit.1 := by
  refine ⟨Sound.startEdit, fun hready => ?_, .inl (preview_startEdit e)⟩
  unfold startEdit
  split
  · exact hready
  · exact .inl rfl

/-- Another explorer takes the place of one whose file has no edits, or it drops them. -/
theorem Passes.replaced (hsound : e'.Sound) (hready : e'.Ready) (hclean : e'.preview.dirty = false)
    (hdrops : e.preview.dirty = true → drops = true) : e.Passes drops e' :=
  ⟨fun _ => hsound, fun _ => hready, .inr ⟨hclean, hdrops⟩⟩

theorem sound_opened (data : Json) (path : String) :
    ((({ preview := {} } : FileExplorer).openPreviewPath data path).startEdit.1).Sound := by
  apply Sound.startEdit
  exact ⟨fun hdirty => absurd hdirty Bool.false_ne_true,
    fun hedit => absurd hedit Bool.false_ne_true, fun hfind => absurd hfind Bool.false_ne_true⟩

theorem ready_opened (data : Json) (path : String) :
    ((({ preview := {} } : FileExplorer).openPreviewPath data path).startEdit.1).Ready :=
  (show Passes false _ _ from passes_startEdit _).ready (.inr rfl)

end FileExplorer

namespace FilesPanel

open FileExplorer

variable {drops : Bool} {e e' : FilesPanel}

theorem OnlyRows.passes (h : e.OnlyRows e') : e.toFileExplorer.Passes drops e'.toFileExplorer := by
  rw [h.editor]
  exact .refl _

theorem new_editor (cwd : String) (listing : Option (List FileEntry)) :
    ((FilesPanel.new cwd).tryRefresh listing).toFileExplorer = { preview := {} } :=
  (onlyRows_tryRefresh listing).editor

theorem passes_openPreviewAtLine (read : Except String Json) (path : String) :
    e.toFileExplorer.Passes (e.rereads read path)
      ((e.openPreviewAtLine read path).getD e).toFileExplorer :=
  (shows_openPreviewAtLine read path).1.passes fun hdirty hkeep =>
    preview_openPreviewAtLine hdirty hkeep

theorem passes_openPreview (replies : FilesReplies) :
    e.toFileExplorer.Passes (e.reopens replies.read)
      ((e.openPreview replies).getD e).toFileExplorer :=
  (shows_openPreview replies).1.passes fun hdirty hkeep => preview_openPreview hdirty hkeep

theorem passes_runTree (hedit : e.editActive = false) (replies : FilesReplies)
    (gitFile : Option String) (command : TreeCommand) :
    e.toFileExplorer.Passes (e.drops replies.read command)
      (e.runTree replies gitFile command).1.toFileExplorer := by
  by_cases hcommand : command = .edit
  · rw [hcommand]
    exact passes_startEdit e.toFileExplorer
  · exact (shows_runTree hedit replies gitFile hcommand).passes fun hdirty hkeep =>
      preview_runTree hdirty gitFile hcommand hkeep

theorem passes_treeKey (hedit : e.editActive = false) (key : KeyEvent) (replies : FilesReplies)
    (gitFile : Option String) :
    e.toFileExplorer.Passes ((treeCommand key).any (e.drops replies.read))
      (e.treeKey key replies gitFile).1.toFileExplorer := by
  unfold treeKey
  cases treeCommand key with
  | none => exact .refl _
  | some command => exact passes_runTree hedit replies gitFile command

theorem passes_contentSearchKey (key : KeyEvent) (replies : FilesReplies) :
    e.toFileExplorer.Passes
      (key.code == .enter && e.contentSearch.selectedMatch.any (e.rereads replies.read))
      (e.contentSearchKey key replies).toFileExplorer := by
  rcases contentSearchKey_cases (e := e) key replies with hsame | ⟨hcode, path, hpath, hopen⟩
  · rw [hsame]
    exact .refl _
  · rw [hopen, hcode, hpath]
    exact passes_openPreviewAtLine replies.read path

end FilesPanel

namespace PanelApp

open FileExplorer

variable {engine : RegexEngine} {w : PanelWorld} {key : FileKey} {s s' : PanelApp} {drops : Bool}

theorem passes_openFilesScreen (hsound : s.files.toFileExplorer.Sound) (w : PanelWorld) :
    s.files.toFileExplorer.Passes drops (s.openFilesScreen w).toFileExplorer := by
  unfold openFilesScreen
  split
  · exact .refl _
  split
  · exact .refl _
  next hclean =>
  cases s.activeCwd w with
  | none => exact .refl _
  | some cwd =>
    simp only [Option.elim_some, FilesPanel.new_editor]
    refine .replaced ⟨?_, ?_, ?_⟩ (.inr rfl) rfl fun hdirty => ?_
    · exact fun hdirty => absurd hdirty Bool.false_ne_true
    · exact fun hedit => absurd hedit Bool.false_ne_true
    · exact fun hfind => absurd hfind Bool.false_ne_true
    · simp [hdirty, hsound.dirty hdirty] at hclean

/-- `EditFile` on another screen reads the file that is shown again. -/
def editDrops (w : PanelWorld) (s : PanelApp) : Bool :=
  s.app.screen != .files && w.gitFile.any (s.files.rereads w.files.read)

theorem passes_editFile (w : PanelWorld) :
    s.files.toFileExplorer.Passes (s.editDrops w) (s.editFile w).toFileExplorer := by
  unfold editFile
  split
  · exact passes_startEdit s.files.toFileExplorer
  next hscreen =>
  split
  · next file data hfile hread =>
      split
      · exact .refl _
      next hrefuses =>
      simp only [explorerOf, FilesPanel.new_editor]
      refine .replaced (sound_opened data file) (ready_opened data file)
        (congrArg FilePreview.dirty (preview_startEdit _)) fun hdirty => ?_
      have hpath : s.files.preview.path = some file := by
        simpa [FilesPanel.refuses, hdirty] using hrefuses
      simp [editDrops, hscreen, hfile, hread, FilesPanel.rereads, hpath, Except.isOk, Except.toBool]
  · exact .refl _

def shortcutDrops (w : PanelWorld) (shortcut : Shortcut) (s : PanelApp) : Bool :=
  shortcut == .editFile && s.editDrops w

theorem passes_runShortcut (hsound : s.files.toFileExplorer.Sound) (w : PanelWorld)
    (shortcut : Shortcut) :
    s.files.toFileExplorer.Passes (s.shortcutDrops w shortcut)
      (s.runShortcut w shortcut).1.toFileExplorer := by
  cases shortcut with
  | files => exact passes_openFilesScreen hsound w
  | refresh =>
    simp only [runShortcut]
    split
    · exact (FilesPanel.onlyRows_tryRefresh _).passes
    · exact .refl _
  | editFile => exact passes_editFile w
  | _ => exact .refl _

/-- A file that is created opens what is in its row. -/
def promptDrops (w : PanelWorld) (accepted : PromptKind × String) (s : PanelApp) : Bool :=
  accepted.1 == .createFile &&
    (s.files.createFile w.files accepted.2).any (·.reopens w.files.read)

theorem passes_runPromptAction {kind : PromptKind} {text : String} {panels : FilesPanel × GitPanel}
    (hkind : kind ≠ .replaceInFile) (h : s.runPromptAction engine w kind text = some panels) :
    s.files.toFileExplorer.Passes (s.promptDrops w (kind, text)) panels.1.toFileExplorer := by
  cases kind with
  | replaceInFile => exact absurd rfl hkind
  | renameFile | confirmDeleteFile =>
    obtain rfl := Option.some.inj h
    dsimp only
    split
    · exact (FilesPanel.onlyRows_tryRefresh _).passes
    · exact .refl _
  | createFile =>
    obtain rfl := Option.some.inj h
    cases hcreated : s.files.createFile w.files text with
    | none => exact .refl _
    | some created =>
      have hrows := FilesPanel.onlyRows_createFile hcreated
      have hopen := FilesPanel.passes_openPreview (e := created) w.files
      rw [hrows.editor] at hopen
      simpa [promptDrops, hcreated] using hopen
  | createDirectory =>
    obtain rfl := Option.some.inj h
    have hrows : s.files.OnlyRows ((s.files.createDirectory w.files text).getD s.files) :=
      FilesPanel.onlyRows_createDirectory
    exact hrows.passes
  | _ =>
    obtain rfl := Option.some.inj h
    exact .refl _

/-- The palette leads to a match in the file that is shown. -/
def candidateDrops (w : PanelWorld) (s : PanelApp) : Bool :=
  match w.palette, w.candidate with
  | .file, .content path => s.files.rereads w.files.read path
  | _, _ => false

theorem passes_runCandidate (hsound : s.files.toFileExplorer.Sound) (hpalette : w.palette = .file) :
    s.files.toFileExplorer.Passes (s.candidateDrops w) (s.runCandidate w).toFileExplorer := by
  have hopened : s.files.toFileExplorer.Passes (s.candidateDrops w)
      (s.openFilesScreen w).toFileExplorer := passes_openFilesScreen hsound w
  apply hopened.trans
  unfold runCandidate
  cases hcandidate : w.candidate with
  | file path isDir =>
    cases isDir with
    | true => exact (FilesPanel.onlyRows_selectPath path).passes
    | false => exact (FilesPanel.onlyRows_revealPath w.files.children path).passes
  | content path =>
    apply (FilesPanel.shows_openPreviewAtLine w.files.read path).1.passes
    intro hdirty hkeep
    apply FilesPanel.preview_openPreviewAtLine hdirty
    rcases hopened.file with hsame | ⟨hclean, -⟩
    · simpa [candidateDrops, hpalette, hcandidate, FilesPanel.rereads, hsame] using hkeep
    · rw [hclean] at hdirty
      cases hdirty

/-- What a key behind the prefix is to the edits. -/
def inputTurn (w : PanelWorld) (key : FileKey) (s : PanelApp) : EditTurn :=
  match s.handler with
  | .editorFind | .fileEdit => s.files.toFileExplorer.turn key w.files.toFileReplies
  | .promptInput _ =>
    match s.acceptedPrompt key.toKeyEvent with
    | some (.replaceInFile, _) => .types
    | _ => .passes
  | _ => .passes

/-- The keys behind the prefix that drop the edits there are. -/
def inputDrops (w : PanelWorld) (key : KeyEvent) (s : PanelApp) : Bool :=
  match s.handler with
  | .promptInput _ => (s.acceptedPrompt key).any (s.promptDrops w)
  | .overlay .searchPalette => s.candidateDrops w
  | .contentSearch =>
    key.code == .enter &&
      s.files.contentSearch.selectedMatch.any (s.files.rereads w.files.read)
  | .screen .files => (FilesPanel.treeCommand key).any (s.files.drops w.files.read)
  | _ => false

/-- The editor has a file, and an open replace prompt has the editor. -/
structure Sound (s : PanelApp) : Prop where
  editor : s.files.toFileExplorer.Sound
  replace : s.app.PromptOpen .replaceInFile → s.files.toFileExplorer.Ready

theorem Sound.passes (hs : s.Sound)
    (h : s.files.toFileExplorer.Passes drops s'.files.toFileExplorer)
    (hreplace : s'.app.PromptOpen .replaceInFile → s.app.PromptOpen .replaceInFile) : s'.Sound :=
  ⟨h.sound hs.editor, fun hopen => h.ready (hs.replace (hreplace hopen))⟩

theorem turned_editorKey (hsound : s.files.toFileExplorer.Sound)
    (hedit : s.files.editActive = true) {turn : FilesPanel × PanelOutcome}
    (h : s.files.editorKey engine key w.files = some turn) :
    turn.1.toFileExplorer.Sound ∧
      s.files.toFileExplorer.Turned (s.files.toFileExplorer.turn key w.files.toFileReplies) drops
        turn.1.toFileExplorer ∧
      ((∃ kind text, turn.2 = .prompt kind text) → turn.1.editActive = true) := by
  obtain ⟨screen, hscreen, rfl⟩ := Option.map_eq_some_iff.mp h
  obtain ⟨hleaves, -, hfind, hprompt⟩ := FilesScreen.handleFilesKey_leaves hsound hscreen
  have hpath := hsound.edit hedit
  dsimp only
  generalize s.files.toFileExplorer.turn key w.files.toFileReplies = turn at hleaves
  have hopen : screen.fileExplorer.preview.path.isSome = true := by
    cases turn with
    | types => simpa [show screen.fileExplorer.preview.path = _ from hleaves] using hpath
    | ends => exact hleaves.2.trans hpath
    | passes => simpa [show screen.fileExplorer.preview = _ from hleaves] using hpath
  refine ⟨⟨fun _ => hopen, fun _ => hopen, hfind⟩, ?_, fun ⟨kind, text, houtcome⟩ => ?_⟩
  · cases turn with
    | types => exact hleaves
    | ends => exact hleaves.1
    | passes => exact .inl hleaves
  · apply hprompt
    cases hinput : screen.promptInput with
    | none => simp [hinput] at houtcome
    | some _ => rfl

theorem turned_replaceInFile (hs : s.Sound) (hopen : s.app.PromptOpen .replaceInFile)
    {text : String} {files : FilesPanel} (h : s.files.replaceInFile engine text = some files) :
    files.toFileExplorer.Sound ∧ files.preview.path = s.files.preview.path ∧
      (s.files.toFileExplorer.Ready → files.toFileExplorer.Ready) := by
  obtain ⟨screen, hscreen, rfl⟩ := Option.map_eq_some_iff.mp h
  rcases FilesScreen.runReplaceInFile_types hscreen with hsame | ⟨hranges, hedit, hpath, hfind⟩
  · dsimp only
    rw [hsame]
    exact ⟨hs.editor, rfl, id⟩
  · have hactive := (hs.replace hopen).resolve_right hranges
    have hsome : screen.fileExplorer.preview.path.isSome = true := by
      rw [hpath]
      exact hs.editor.edit hactive
    exact ⟨⟨fun _ => hsome, fun _ => hsome, fun _ => hedit⟩, hpath, fun _ => .inl hedit⟩

theorem unprefixed_turned (hs : s.Sound) (h : s.unprefixed engine w key = some s') :
    s'.Sound ∧ s.files.toFileExplorer.Turned (s.inputTurn w key) (s.inputDrops w key.toKeyEvent)
      s'.files.toFileExplorer := by
  obtain ⟨turn, hturn, rfl⟩ := Option.map_eq_some_iff.mp h
  have hfront := front_handler s
  have hpanel : (s.unprefixedWorld w key.toKeyEvent turn.2.2).panel = turn.2.2 := rfl
  generalize s.unprefixedWorld w key.toKeyEvent turn.2.2 = world at hpanel
  unfold panelKey at hturn
  unfold inputTurn inputDrops
  -- a handler of the app leaves the file alone, and opens no prompt that replaces
  have hstay (hfiles : turn.1 = s.files)
      (hreplace : (s.app.handleUnprefixed world key.toKeyEvent).1.PromptOpen .replaceInFile →
        s.app.PromptOpen .replaceInFile) (drops : Bool) :
      PanelApp.Sound ⟨(s.app.handleUnprefixed world key.toKeyEvent).1, turn.1, turn.2.1⟩ ∧
        s.files.toFileExplorer.Turned .passes drops turn.1.toFileExplorer := by
    rw [hfiles]
    exact ⟨hs.passes (.refl _ : s.files.toFileExplorer.Passes false _) hreplace, .inl rfl⟩
  -- so does one of a panel that passes the file on, where it asks for no such prompt
  have hpass {screen : TuiScreen} {drops : Bool} (hin : s.InScreen screen)
      (hscreen : screen ≠ .terminal) (hplain : turn.2.2.Plain)
      (hpasses : s.files.toFileExplorer.Passes drops turn.1.toFileExplorer) :
      PanelApp.Sound ⟨(s.app.handleUnprefixed world key.toKeyEvent).1, turn.1, turn.2.1⟩ ∧
        s.files.toFileExplorer.Turned .passes drops turn.1.toFileExplorer := by
    refine ⟨⟨hpasses.sound hs.editor, fun hopen => ?_⟩, hpasses.file⟩
    obtain ⟨kind, text, hprompt, hkind⟩ := replace_panel hin hscreen hopen
    exact absurd hkind (hplain kind text (hpanel.symm.trans hprompt))
  have hquiet : PanelOutcome.nothing.Plain := by simp [PanelOutcome.Plain]
  cases hhandler : s.handler with
  | commitInput =>
    rw [hhandler] at hfront hturn
    obtain rfl := Option.some.inj hturn
    exact hstay rfl (stays_input (.inl hfront) world key.toKeyEvent).replace false
  | lens =>
    rw [hhandler] at hfront hturn
    obtain rfl := Option.some.inj hturn
    exact hstay rfl (stays_input (.inr (.inr hfront.2.2)) world key.toKeyEvent).replace false
  | promptInput kind =>
    rw [hhandler] at hfront hturn
    obtain ⟨prompt, hprompt, -⟩ := Option.map_eq_some_iff.mp hfront.2
    have hinput : s.app.TakenByInput := .inr (.inl (by rw [hprompt]; rfl))
    have hreplace := (stays_input hinput world key.toKeyEvent).replace
    dsimp only at hturn ⊢
    cases haccepted : s.acceptedPrompt key.toKeyEvent with
    | none =>
      rw [haccepted] at hturn
      obtain rfl := Option.some.inj hturn
      exact hstay rfl hreplace _
    | some accepted =>
      obtain ⟨kind', text⟩ := accepted
      rw [haccepted] at hturn
      obtain ⟨panels, hpanels, rfl⟩ := Option.map_eq_some_iff.mp hturn
      by_cases hkind : kind' = .replaceInFile
      · subst hkind
        obtain ⟨files, hfiles, rfl⟩ := Option.map_eq_some_iff.mp hpanels
        have hopen := promptOpen_accepted haccepted
        obtain ⟨hsound, hpath, hready⟩ := turned_replaceInFile hs hopen hfiles
        exact ⟨⟨hsound, fun _ => hready (hs.replace hopen)⟩, hpath⟩
      · have hpasses := passes_runPromptAction hkind hpanels
        have hturned : (match some (kind', text) with
            | some (PromptKind.replaceInFile, _) => EditTurn.types
            | _ => EditTurn.passes) = .passes := by
          split
          · next heq => exact absurd (Prod.mk.inj (Option.some.inj heq)).1 hkind
          · rfl
        rw [hturned]
        exact ⟨hs.passes hpasses hreplace, hpasses.file⟩
  | overlay mode =>
    rw [hhandler] at hfront hturn
    by_cases hmode : mode = .searchPalette
    · subst hmode
      have hreplace := (goesTo_palette hfront world key.toKeyEvent).replace
      dsimp only at hturn ⊢
      split at hturn
      · next hpalette =>
          obtain rfl := Option.some.inj hturn
          have hpasses := passes_runCandidate hs.editor hpalette
          exact ⟨hs.passes hpasses hreplace, hpasses.file⟩
      · obtain rfl := Option.some.inj hturn
        exact hstay rfl hreplace _
    · have hreplace := (stays_overlay hfront hmode world key.toKeyEvent).replace
      cases mode with
      | searchPalette => exact absurd rfl hmode
      | _ =>
        obtain rfl := Option.some.inj hturn
        exact hstay rfl hreplace _
  | diffSearch =>
    rw [hhandler] at hfront hturn
    obtain rfl := Option.some.inj hturn
    exact hpass hfront (by simp) hquiet (.refl _)
  | editorFind | fileEdit =>
    rw [hhandler] at hfront hturn
    obtain ⟨edited, hedited, rfl⟩ := Option.map_eq_some_iff.mp hturn
    obtain ⟨hsound, hturned, hprompt⟩ := turned_editorKey hs.editor hfront.2 hedited
    refine ⟨⟨hsound, fun hopen => ?_⟩, hturned⟩
    obtain ⟨kind, text, houtcome, -⟩ := replace_panel hfront.1 (by simp) hopen
    exact .inl (hprompt ⟨kind, text, hpanel.symm.trans houtcome⟩)
  | filterBar =>
    rw [hhandler] at hfront hturn
    obtain rfl := Option.some.inj hturn
    apply hpass hfront.1 (by simp) hquiet
    rw [FilesPanel.shows_filterKey]
    exact .refl _
  | contentSearch =>
    rw [hhandler] at hfront hturn
    obtain rfl := Option.some.inj hturn
    exact hpass hfront.1 (by simp) hquiet
      (FilesPanel.passes_contentSearchKey key.toKeyEvent w.files)
  | screen screen =>
    rw [hhandler] at hfront hturn
    cases screen with
    | terminal =>
      obtain rfl := Option.some.inj hturn
      exact hstay rfl (stays_terminal hfront world key.toKeyEvent).replace _
    | git =>
      obtain rfl := Option.some.inj hturn
      exact hpass hfront.1 (by simp) (s.git.outcome_plain w key.toKeyEvent) (.refl _)
    | files =>
      obtain rfl := Option.some.inj hturn
      have hedit : s.files.editActive = false := by
        have hcaptures := hfront.2
        simp only [FilesPanel.captures, Bool.or_eq_false_iff] at hcaptures
        exact hcaptures.1.1
      apply hpass hfront.1 (by simp) _ (FilesPanel.passes_treeKey hedit _ _ _)
      rcases s.files.treeKey_asks key.toKeyEvent w.files w.gitFile with hnothing | ⟨-, hplain⟩
      · exact hnothing ▸ hquiet
      · exact hplain

theorem fed_sound (hs : s.Sound) (key : KeyEvent) : (s.fed key).Sound := ⟨hs.editor, hs.replace⟩

theorem runs_sound (hs : s.Sound) (w : PanelWorld) (shortcut : Shortcut) :
    (s.runs w shortcut).Sound := by
  refine hs.passes (passes_runShortcut hs.editor w shortcut) ?_
  by_cases hlens : shortcut = .lens
  · rw [hlens]
    exact (TuiApp.runShortcut_lens (s.shortcutWorld w .lens) s.app).2.1
  · exact (TuiApp.goesTo_runShortcut (s.shortcutWorld w shortcut) hlens).replace

def turn (w : PanelWorld) (key : FileKey) (s : PanelApp) : EditTurn :=
  if (s.shortcut key.toKeyEvent).isSome || s.armed key.toKeyEvent then .passes
  else s.inputTurn w key

/-- The keys that drop the edits there are. -/
def dropsEdits (w : PanelWorld) (key : KeyEvent) (s : PanelApp) : Bool :=
  match s.shortcut key with
  | some shortcut => s.shortcutDrops w shortcut
  | none => !s.armed key && s.inputDrops w key

@[simp] theorem inputTurn_fed (key' : KeyEvent) :
    (s.fed key').inputTurn w key = s.inputTurn w key := by
  simp [inputTurn]

@[simp] theorem inputDrops_fed (key key' : KeyEvent) :
    (s.fed key').inputDrops w key = s.inputDrops w key := by
  have hprompt : (s.fed key').promptDrops w = s.promptDrops w := rfl
  have hcandidate : (s.fed key').candidateDrops w = s.candidateDrops w := rfl
  simp [inputDrops, hprompt, hcandidate]

theorem handleKey_turned (hs : s.Sound) (h : s.handleKey engine w key = some s') :
    s'.Sound ∧ s.files.toFileExplorer.Turned (s.turn w key) (s.dropsEdits w key.toKeyEvent)
      s'.files.toFileExplorer := by
  unfold turn dropsEdits
  have hfed := fed_sound hs key.toKeyEvent
  rcases handleKey_cases h with ⟨shortcut, hshortcut, rfl⟩ | ⟨hshortcut, hrest⟩
  · simp only [hshortcut, Option.isSome_some, Bool.true_or, if_true]
    exact ⟨runs_sound hfed w shortcut, (passes_runShortcut hs.editor w shortcut).file⟩
  rcases hrest with ⟨harmed, rfl⟩ | ⟨harmed, hnext⟩
  · simp only [harmed, Bool.or_true, if_true]
    exact ⟨hfed, .inl rfl⟩
  · simp only [hshortcut, harmed, Option.isSome_none, Bool.or_self, Bool.false_eq_true, if_false,
      Bool.not_false, Bool.true_and]
    simpa using unprefixed_turned hfed hnext

theorem step_sound {a : PanelAction} (hs : s.Sound) (h : step engine s a = some s') : s'.Sound := by
  cases a with
  | key w key => exact (handleKey_turned hs h).1
  | other a =>
    simp only [step] at h
    split at h
    · cases h
    · next hkey =>
        obtain rfl := Option.some.inj h
        have hstays := TuiApp.stays_step s.app (a := a) (by rintro w key rfl; exact hkey rfl)
        exact ⟨hs.editor, fun hopen => hs.replace (hstays.replace hopen)⟩

theorem start_sound (refreshInterval : Nat) (session : String) :
    (start refreshInterval session).Sound := by
  refine ⟨⟨?_, ?_, ?_⟩, fun _ => .inr rfl⟩
  · exact fun hdirty => absurd hdirty Bool.false_ne_true
  · exact fun hedit => absurd hedit Bool.false_ne_true
  · exact fun hfind => absurd hfind Bool.false_ne_true

theorem sound_of_reachable (h : (panelSystem engine).Reachable s) : s.Sound := by
  refine h.invariant (I := Sound) ?_ fun s a s' _ hs _ hstep => step_sound hs hstep
  rintro _ ⟨refreshInterval, session, rfl⟩
  exact start_sound refreshInterval session

end PanelApp

/-- The path and the text of a file with edits. -/
def FilePreview.edits (preview : FilePreview) : Option (Option String × List Char) :=
  if preview.dirty then some (preview.path, preview.content) else none

/-- What is unsaved after a turn: text that is typed, under the path it was typed for. A save and
a reload end the edits. -/
def FileExplorer.EditTurn.unsaved (before after : FilePreview)
    (unsaved : Option (Option String × List Char)) :
    FileExplorer.EditTurn → Option (Option String × List Char)
  | .types => after.edits.map fun typed => (before.path, typed.2)
  | .ends => none
  | .passes => unsaved

/-- The interface beside what was typed and not saved. -/
structure EditedApp where
  panels : PanelApp
  unsaved : Option (Option String × List Char)

namespace EditedApp

def step (engine : RegexEngine) (s : EditedApp) : PanelAction → Option EditedApp
  | .key w key =>
    (s.panels.handleKey engine w key).map fun next =>
      ⟨next, (s.panels.turn w key).unsaved s.panels.files.preview next.files.preview s.unsaved⟩
  | .other a => (s.panels.step engine (.other a)).map fun next => ⟨next, s.unsaved⟩

def KeepsEdits (s : EditedApp) : Prop :=
  ∀ typed, s.unsaved = some typed →
    s.panels.files.preview.path = typed.1 ∧ s.panels.files.preview.content = typed.2

def KeyKeeps (s : EditedApp) : PanelAction → Prop
  | .key w key => s.panels.files.preview.dirty = true → s.panels.dropsEdits w key.toKeyEvent = false
  | .other _ => True

instance (s : EditedApp) (a : PanelAction) : Decidable (s.KeyKeeps a) :=
  match a with
  | .key _ _ => inferInstanceAs (Decidable (_ → _))
  | .other _ => isTrue trivial

end EditedApp

/-- The runs from any state that the interface reaches. -/
def editSystem (engine : RegexEngine) : System EditedApp PanelAction where
  init s := (panelSystem engine).Reachable s.panels ∧ s.unsaved = s.panels.files.preview.edits
  step := EditedApp.step engine

namespace EditedApp

variable {engine : RegexEngine} {s s' : EditedApp}

theorem edits_turned {e e' : FileExplorer} {turn : FileExplorer.EditTurn} {drops : Bool}
    (h : e.Turned turn drops e') (hkeeps : e.preview.dirty = true → drops = false) :
    turn.unsaved e.preview e'.preview e.preview.edits = e'.preview.edits := by
  cases turn with
  | types =>
    have hpath : e'.preview.path = e.preview.path := h
    simp only [FileExplorer.EditTurn.unsaved, FilePreview.edits]
    split
    · simp [hpath]
    · rfl
  | ends =>
    have hclean : e'.preview.dirty = false := h
    simp [FileExplorer.EditTurn.unsaved, FilePreview.edits, hclean]
  | passes =>
    rcases h with hsame | ⟨hclean, hdrops⟩
    · rw [hsame]
      rfl
    cases hbefore : e.preview.dirty with
    | false => simp [FileExplorer.EditTurn.unsaved, FilePreview.edits, hclean, hbefore]
    | true =>
      have hkept := hkeeps hbefore
      rw [hdrops hbefore] at hkept
      cases hkept

theorem unsaved_eq (h : (editSystem engine).ReachVia KeyKeeps s) :
    s.panels.Sound ∧ s.unsaved = s.panels.files.preview.edits := by
  refine h.invariant (I := fun s => s.panels.Sound ∧ s.unsaved = s.panels.files.preview.edits) ?_ ?_
  · rintro s ⟨hreach, hunsaved⟩
    exact ⟨PanelApp.sound_of_reachable hreach, hunsaved⟩
  rintro s a s' - ⟨hs, hunsaved⟩ hkeeps hstep
  cases a with
  | key w key =>
    obtain ⟨next, hnext, rfl⟩ := Option.map_eq_some_iff.mp hstep
    obtain ⟨hsound, hturned⟩ := PanelApp.handleKey_turned hs hnext
    refine ⟨hsound, ?_⟩
    rw [← edits_turned hturned hkeeps, ← hunsaved]
  | other a =>
    obtain ⟨next, hnext, rfl⟩ := Option.map_eq_some_iff.mp hstep
    refine ⟨PanelApp.step_sound hs hnext, hunsaved.trans ?_⟩
    simp only [PanelApp.step] at hnext
    split at hnext
    · cases hnext
    · obtain rfl := Option.some.inj hnext
      rfl

end EditedApp

/-- In a run whose keys drop no edits, what was typed is there until it is saved. -/
theorem editSystem_keepsEdits {engine : RegexEngine} {s : EditedApp}
    (h : (editSystem engine).ReachVia EditedApp.KeyKeeps s) : s.KeepsEdits := by
  intro typed htyped
  rw [(EditedApp.unsaved_eq h).2, FilePreview.edits] at htyped
  split at htyped
  · obtain rfl := Option.some.inj htyped
    exact ⟨rfl, rfl⟩
  · cases htyped

/-- Edits and the editor always have a file, the find bar belongs to the editor, and so does a
replacement that has something to replace. -/
theorem panelSystem_editorHasFile {engine : RegexEngine} {s : PanelApp}
    (h : (panelSystem engine).Reachable s) :
    (s.files.preview.dirty = true ∨ s.files.editActive = true →
        s.files.preview.path.isSome = true) ∧
      (s.files.editorFind.active = true → s.files.editActive = true) ∧
      (s.app.PromptOpen .replaceInFile → s.files.editorFind.ranges ≠ [] →
        s.files.editActive = true) := by
  have hs := PanelApp.sound_of_reachable h
  refine ⟨fun hshown => hshown.elim hs.editor.dirty hs.editor.edit, hs.editor.find, ?_⟩
  exact fun hopen hranges => (hs.replace hopen).resolve_right hranges

/-- A directory with a file and a directory, in which an empty file is read. -/
def twoRows : PanelWorld where
  toKeyWorld := idleWorld
  files :=
    { read := .ok .null
      write := .error ""
      listing := some [⟨"f", "f", false, 0, false⟩, ⟨"d", "d", true, 0, false⟩]
      children := fun _ => none
      content := none
      accepted := false }
  agentCwd := some "r"
  gitFile := none
  gitReady := false
  gitRoot := ""
  diffMatches := []
  candidate := .file "" false

def typedKey (code : KeyCode) (control : Bool) : PanelAction :=
  .key twoRows ⟨⟨code, control, false⟩, false⟩

/-- The file is opened on the Files screen, and a letter is typed into it. -/
def typedLetter : List PanelAction :=
  [typedKey (.char 'b') true, typedKey (.char 'f') false, typedKey .enter false,
    typedKey (.char 'e') false, typedKey (.char 'x') false, typedKey .esc false,
    typedKey (.char 'j') false]

theorem start_initial : (editSystem charEngine).init ⟨PanelApp.start 1000 "", none⟩ :=
  ⟨.init ⟨1000, "", rfl⟩, rfl⟩

theorem typedLetter_runs : ((editSystem charEngine).runVia EditedApp.KeyKeeps
    ⟨PanelApp.start 1000 "", none⟩ typedLetter).isSome = true := by
  decide +kernel

/-- The letter is kept while the rows are walked. -/
theorem editSystem_keepsEdits_typed :
    let s := ((editSystem charEngine).runVia EditedApp.KeyKeeps ⟨PanelApp.start 1000 "", none⟩
      typedLetter).get typedLetter_runs
    s.unsaved = some (some "f", ['x']) ∧ s.KeepsEdits :=
  ⟨by decide +kernel, editSystem_keepsEdits (System.reachVia_get start_initial typedLetter_runs)⟩

/-- It is gone once a directory is entered. -/
theorem editSystem_drops :
    ∃ s, (editSystem charEngine).Reachable s ∧ ¬EditedApp.KeepsEdits s := by
  refine ⟨_, System.reachable_get start_initial
    (show ((editSystem charEngine).run ⟨PanelApp.start 1000 "", none⟩
      (typedLetter ++ [typedKey (.char 'l') false])).isSome = true by decide +kernel), fun h => ?_⟩
  have hkept := h (some "f", ['x']) (by decide +kernel)
  exact absurd hkept.1 (by decide +kernel)

/-- A file under edit with its find bar open. -/
def findOpen : List PanelAction :=
  [typedKey (.char 'b') true, typedKey (.char 'f') false, typedKey .enter false,
    typedKey (.char 'e') false, typedKey (.char 'f') true]

theorem findOpen_runs : ((panelSystem charEngine).run (PanelApp.start 1000 "")
    findOpen).isSome = true := by
  decide +kernel

theorem panelSystem_editorHasFile_findOpen :
    let s := ((panelSystem charEngine).run (PanelApp.start 1000 "") findOpen).get findOpen_runs
    s.files.editorFind.active = true ∧ s.files.editActive = true ∧
      s.files.preview.path.isSome = true := by
  have hfind := panelSystem_editorHasFile
    (System.reachable_get (M := panelSystem charEngine) ⟨1000, "", rfl⟩ findOpen_runs)
  have hactive : (((panelSystem charEngine).run (PanelApp.start 1000 "") findOpen).get
      findOpen_runs).files.editorFind.active = true := by
    decide +kernel
  exact ⟨hactive, hfind.2.1 hactive, hfind.1 (.inr (hfind.2.1 hactive))⟩

end HerdrWebui.Tui
