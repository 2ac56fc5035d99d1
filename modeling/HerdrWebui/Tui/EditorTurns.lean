import HerdrWebui.Tui.Explorer

/-!
What a key of the editor does to the file that is shown: it is typed into, saved, read again, or
left alone.
-/

namespace HerdrWebui.Tui

/-- Edits and the editor have a file, and the find bar is one of the editor. -/
structure FileExplorer.Sound (e : FileExplorer) : Prop where
  dirty : e.preview.dirty = true → e.preview.path.isSome = true
  edit : e.editActive = true → e.preview.path.isSome = true
  find : e.editorFind.active = true → e.editActive = true

/-- The file is the same one. The mode may be left, and the find bar stays. -/
structure FileExplorer.Types (e e' : FileExplorer) : Prop where
  path : e'.preview.path = e.preview.path
  edit : e'.editActive = true → e.editActive = true
  find : e'.editorFind = e.editorFind

namespace FileExplorer

variable {e e' : FileExplorer}

theorem Sound.shows (hsound : e.Sound) (h : e.Shows e') : e'.Sound := by
  refine ⟨fun hdirty => ?_, fun hedit => ?_, fun hfind => ?_⟩
  · rcases h.clean with hsame | hclean
    · rw [hsame] at hdirty ⊢
      exact hsound.dirty hdirty
    · rw [hclean] at hdirty
      cases hdirty
  · have hbefore : e.editActive = true := by rwa [h.edit] at hedit
    exact h.path hbefore (hsound.edit hbefore)
  · rw [h.find] at hfind
    rw [h.edit]
    exact hsound.find hfind

theorem Sound.startEdit (hsound : e.Sound) : e.startEdit.1.Sound := by
  unfold FileExplorer.startEdit
  cases hcan : e.canEditPreview with
  | error _ => exact hsound
  | ok _ =>
    have hpath : e.preview.path.isSome = true := by
      cases hpath : e.preview.path with
      | none =>
        simp only [canEditPreview, hpath] at hcan
        split at hcan
        · cases hcan
        · split at hcan <;> cases hcan
      | some _ => rfl
    exact ⟨hsound.dirty, fun _ => hpath, fun _ => rfl⟩

theorem preview_startEdit (e : FileExplorer) : e.startEdit.1.preview = e.preview := by
  unfold FileExplorer.startEdit
  split <;> rfl

theorem Types.refl (e : FileExplorer) : e.Types e := ⟨rfl, id, rfl⟩

theorem insertChar_types {ch : Char} (h : e.insertChar ch = some e') : e.Types e' := by
  obtain ⟨cut, -, rfl⟩ := Option.map_eq_some_iff.mp h
  exact ⟨rfl, id, rfl⟩

theorem typeKey_types {key : FileKey} (h : e.typeKey key = some e') : e.Types e' := by
  unfold typeKey at h
  split at h
  · obtain rfl := Option.some.inj h
    exact ⟨rfl, fun hedit => absurd hedit Bool.false_ne_true, rfl⟩
  · obtain ⟨cut, -, rfl⟩ := Option.map_eq_some_iff.mp h
    split <;> exact ⟨rfl, id, rfl⟩
  · exact insertChar_types h
  · obtain ⟨cut, -, rfl⟩ := Option.map_eq_some_iff.mp h
    exact ⟨rfl, id, rfl⟩
  · obtain ⟨cut, -, rfl⟩ := Option.map_eq_some_iff.mp h
    exact ⟨rfl, id, rfl⟩
  · obtain ⟨cut, -, rfl⟩ := Option.map_eq_some_iff.mp h
    exact ⟨rfl, id, rfl⟩
  · obtain ⟨cut, -, rfl⟩ := Option.map_eq_some_iff.mp h
    exact ⟨rfl, id, rfl⟩
  · split at h
    · obtain rfl := Option.some.inj h
      exact .refl e
    · exact insertChar_types h
  · obtain rfl := Option.some.inj h
    exact .refl e

/-- A save clears the mark of the edits where it succeeds, and changes nothing else where it
does not. -/
theorem savePreview_cases (write : Except String Json) :
    ((e.savePreview write).2.isOk = true ∧ ∃ hash,
        (e.savePreview write).1 = { e with preview := { e.preview with hash, dirty := false } }) ∨
      (e.savePreview write).2.isOk = false ∧ (e.savePreview write).1 = e := by
  unfold savePreview
  split
  · exact .inr ⟨rfl, rfl⟩
  · cases e.canEditPreview with
    | error _ => exact .inr ⟨rfl, rfl⟩
    | ok _ =>
      cases write with
      | error _ => exact .inr ⟨rfl, rfl⟩
      | ok data => exact .inl ⟨rfl, _, rfl⟩

theorem preview_typeKey {key : FileKey} (hmoves : key.edits = false) (h : e.typeKey key = some e') :
    e'.preview = e.preview := by
  unfold typeKey at h
  unfold FileKey.edits at hmoves
  split at h
  · obtain rfl := Option.some.inj h
    rfl
  · simp_all
  · simp_all
  · obtain ⟨cut, -, rfl⟩ := Option.map_eq_some_iff.mp h
    rfl
  · obtain ⟨cut, -, rfl⟩ := Option.map_eq_some_iff.mp h
    rfl
  · obtain ⟨cut, -, rfl⟩ := Option.map_eq_some_iff.mp h
    rfl
  · obtain ⟨cut, -, rfl⟩ := Option.map_eq_some_iff.mp h
    rfl
  · next ch hcode =>
      rw [hcode] at hmoves
      split at h
      · obtain rfl := Option.some.inj h
        rfl
      · simp_all
  · obtain rfl := Option.some.inj h
    rfl

def isSaveKey (key : FileKey) : Bool := key.control && key.code == .char 's'

def isReloadKey (key : FileKey) : Bool := key.control && key.code == .char 'r'

/-- What a key of the editor is to the edits. -/
inductive EditTurn where
  | types
  | ends
  | passes
  deriving DecidableEq

/-- Edits end with a save that succeeds and with a reload. -/
def turn (e : FileExplorer) (key : FileKey) (replies : FileReplies) : EditTurn :=
  if e.editorFind.active then .passes
  else if isSaveKey key then
    if (e.savePreview replies.write).2.isOk then .ends else .passes
  else if isReloadKey key then
    if e.preview.path.isSome && replies.read.isOk then .ends else .passes
  else if key.edits then .types
  else .passes

def Leaves (e e' : FileExplorer) : EditTurn → Prop
  | .types => e'.preview.path = e.preview.path
  | .ends => e'.preview.dirty = false ∧ e'.preview.path.isSome = e.preview.path.isSome
  | .passes => e'.preview = e.preview

theorem editKey_leaves {key : FileKey} {replies : FileReplies}
    {outcome : FileExplorer × Except String Unit} (hfind : e.editorFind.active = false)
    (h : e.editKey key replies = some outcome) :
    e.Leaves outcome.1 (e.turn key replies) ∧
      (outcome.1.editActive = true → e.editActive = true) ∧
      outcome.1.editorFind = e.editorFind := by
  unfold editKey at h
  dsimp only at h
  generalize hclamped : ({ e with editCursor := _ } : FileExplorer) = clamped at h
  have hpreview : clamped.preview = e.preview := by rw [← hclamped]
  have hedit : clamped.editActive = e.editActive := by rw [← hclamped]
  have hsame : clamped.editorFind = e.editorFind := by rw [← hclamped]
  have hsave : (clamped.savePreview replies.write).2 = (e.savePreview replies.write).2 := by
    simp only [savePreview, canEditPreview, hpreview]
    split
    · rfl
    · split
      · rfl
      · split <;> rfl
  unfold turn
  rw [hfind, if_neg Bool.false_ne_true]
  split at h
  · next hkey =>
      obtain rfl := Option.some.inj h
      have hkey : isSaveKey key = true := hkey
      rw [if_pos hkey, ← hsave]
      rcases savePreview_cases (e := clamped) replies.write with ⟨hok, hash, hsaved⟩ | ⟨hbad, hkept⟩
      · rw [if_pos hok, hsaved]
        exact ⟨⟨rfl, by rw [hpreview]⟩, by rw [hedit]; exact id, hsame⟩
      · rw [if_neg (by rw [hbad]; exact Bool.false_ne_true), hkept]
        exact ⟨hpreview, by rw [hedit]; exact id, hsame⟩
  · next hnotsave =>
      have hnotsave : ¬isSaveKey key = true := hnotsave
      rw [if_neg hnotsave]
      split at h
      · next hkey =>
          have hkey : isReloadKey key = true := hkey
          rw [if_pos hkey]
          split at h
          · next hpath =>
              obtain rfl := Option.some.inj h
              rw [hpath]
              exact ⟨hpreview, by rw [hedit]; exact id, hsame⟩
          · next hread =>
              obtain rfl := Option.some.inj h
              rw [hread, show (Except.error _ : Except String Json).isOk = false from rfl,
                Bool.and_false]
              exact ⟨hpreview, by rw [hedit]; exact id, hsame⟩
          · next path data hpath hread =>
              have hends : ((clamped.openPreviewPath data path).preview.dirty = false ∧
                  (clamped.openPreviewPath data path).preview.path.isSome =
                    e.preview.path.isSome) := by
                rw [hpath]
                exact ⟨rfl, rfl⟩
              rw [hread, hpath, show (Except.ok data : Except String Json).isOk = true from rfl]
              split at h
              · obtain rfl := Option.some.inj h
                exact ⟨hends, by rw [← hedit]; exact id, hsame⟩
              · obtain rfl := Option.some.inj h
                exact ⟨hends, by rw [← hedit]; exact id, hsame⟩
      · next hnotreload =>
          have hnotreload : ¬isReloadKey key = true := hnotreload
          rw [if_neg hnotreload]
          obtain ⟨typed, htyped, rfl⟩ := Option.map_eq_some_iff.mp h
          have htypes := typeKey_types htyped
          refine ⟨?_, fun hactive => hedit ▸ htypes.edit hactive, htypes.find.trans hsame⟩
          cases hedits : key.edits with
          | true => exact htypes.path.trans (congrArg FilePreview.path hpreview)
          | false => exact (preview_typeKey hedits htyped).trans hpreview

variable (engine : RegexEngine)

theorem refreshFind_editor (e : FileExplorer) :
    (e.refreshFind engine).preview = e.preview ∧
      (e.refreshFind engine).editActive = e.editActive ∧
      (e.refreshFind engine).editorFind.active = e.editorFind.active := by
  unfold refreshFind
  split <;> exact ⟨rfl, rfl, rfl⟩

end FileExplorer

namespace FilesScreen

open FileExplorer

variable {engine : RegexEngine} {e : FileExplorer} {key : FileKey} {replies : FileReplies}

theorem handleEditorFindKey_keeps {screen : FilesScreen}
    (h : FilesScreen.handleEditorFindKey engine ⟨e, none, "", none⟩ key = some screen) :
    screen.fileExplorer.preview = e.preview ∧ screen.fileExplorer.editActive = e.editActive ∧
      screen.promptInput = none := by
  unfold handleEditorFindKey at h
  dsimp only at h
  split at h
  · obtain rfl := Option.some.inj h
    exact ⟨rfl, rfl, rfl⟩
  · obtain ⟨found, hfound, rfl⟩ := Option.map_eq_some_iff.mp h
    unfold editorFindNext at hfound
    split at hfound
    · obtain rfl := Option.some.inj hfound
      exact ⟨rfl, rfl, rfl⟩
    · obtain ⟨range, -, rfl⟩ := Option.map_eq_some_iff.mp hfound
      exact ⟨rfl, rfl, rfl⟩
  · obtain rfl := Option.some.inj h
    have hfind := refreshFind_editor engine
      (e.withFind { e.editorFind with query := e.editorFind.query.dropLast })
    exact ⟨hfind.1, hfind.2.1, rfl⟩
  · split at h
    · obtain rfl := Option.some.inj h
      have hfind := refreshFind_editor engine
        (e.withFind { e.editorFind with matchCase := !e.editorFind.matchCase })
      exact ⟨hfind.1, hfind.2.1, rfl⟩
    split at h
    · obtain rfl := Option.some.inj h
      have hfind := refreshFind_editor engine
        (e.withFind { e.editorFind with regex := !e.editorFind.regex })
      exact ⟨hfind.1, hfind.2.1, rfl⟩
    split at h
    · obtain rfl := Option.some.inj h
      exact ⟨rfl, rfl, rfl⟩
    · next ch _ _ _ _ =>
        obtain rfl := Option.some.inj h
        have hfind := refreshFind_editor engine
          (e.withFind { e.editorFind with query := e.editorFind.query ++ [ch] })
        exact ⟨hfind.1, hfind.2.1, rfl⟩
  · obtain rfl := Option.some.inj h
    exact ⟨rfl, rfl, rfl⟩

/-- A key of the editor, with the find bar or without it. The replace prompt and the find bar are
opened in the editor alone. -/
theorem handleFilesKey_leaves {screen : FilesScreen} (hsound : e.Sound)
    (h : FilesScreen.handleFilesKey engine ⟨e, none, "", none⟩ key replies = some screen) :
    e.Leaves screen.fileExplorer (e.turn key replies) ∧
      (screen.fileExplorer.editActive = true → e.editActive = true) ∧
      (screen.fileExplorer.editorFind.active = true → screen.fileExplorer.editActive = true) ∧
      (screen.promptInput.isSome = true → screen.fileExplorer.editActive = true) := by
  unfold handleFilesKey at h
  dsimp only at h
  split at h
  · next hfind =>
      obtain ⟨hpreview, hedit, hprompt⟩ := handleEditorFindKey_keeps h
      have hactive := hsound.find hfind
      refine ⟨?_, fun _ => hactive, fun _ => hedit.trans hactive, fun hsome => ?_⟩
      · unfold turn
        rw [if_pos hfind]
        exact hpreview
      · rw [hprompt] at hsome
        cases hsome
  · next hfind =>
      obtain ⟨outcome, houtcome, hscreen⟩ := Option.map_eq_some_iff.mp h
      have hnone : e.editorFind.active = false := Bool.eq_false_iff.mpr hfind
      obtain ⟨hleaves, hedit, hsame⟩ := editKey_leaves hnone houtcome
      have hbar : outcome.1.editorFind.active = false := by rw [hsame, hnone]
      split at hscreen
      · rw [← hscreen]
        exact ⟨hleaves, hedit, by simp [hbar], by simp⟩
      · split at hscreen
        · rw [← hscreen]
          exact ⟨hleaves, hedit, by simp [withExplorer, hbar], by simp [withExplorer]⟩
        · next hactive =>
            have hactive : outcome.1.editActive = true := by simpa using hactive
            split at hscreen
            · rw [← hscreen]
              have hopen := refreshFind_editor engine
                (outcome.1.withFind { outcome.1.editorFind with active := true })
              refine ⟨?_, fun hopened => hedit (hopen.2.1 ▸ hopened),
                fun _ => hopen.2.1.trans hactive, by simp [withExplorer]⟩
              revert hleaves
              unfold Leaves
              dsimp only
              rw [editorFindOpen, hopen.1]
              exact id
            · split at hscreen
              · rw [← hscreen]
                exact ⟨hleaves, hedit, fun _ => hactive, fun _ => hactive⟩
              · split at hscreen <;> rw [← hscreen] <;>
                  exact ⟨hleaves, hedit, fun _ => hactive, fun _ => hactive⟩

theorem runReplaceInFile_types {text : String} {screen : FilesScreen}
    (h : FilesScreen.runReplaceInFile engine ⟨e, none, "", none⟩ text = some screen) :
    screen.fileExplorer = e ∨
      e.editorFind.ranges ≠ [] ∧ screen.fileExplorer.editActive = true ∧
        screen.fileExplorer.preview.path = e.preview.path ∧
        screen.fileExplorer.editorFind.active = e.editorFind.active := by
  unfold runReplaceInFile at h
  dsimp only at h
  obtain ⟨outcome, houtcome, hscreen⟩ := Option.map_eq_some_iff.mp h
  unfold editorReplace at houtcome
  split at houtcome
  · obtain rfl := Option.some.inj houtcome
    left
    rw [← hscreen]
    rfl
  · next hranges =>
      obtain ⟨content, -, rfl⟩ := Option.map_eq_some_iff.mp houtcome
      have hfind := refreshFind_editor engine (e.withText content e.editCursor)
      right
      rw [← hscreen]
      refine ⟨hranges, rfl, ?_, hfind.2.2⟩
      have hpath : ((e.withText content e.editCursor).refreshFind engine).preview.path =
          e.preview.path := by
        rw [hfind.1]
        rfl
      exact hpath

end FilesScreen

end HerdrWebui.Tui
