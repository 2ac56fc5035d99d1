import HerdrWebui.Concurrency.System
import HerdrWebui.Tui.Layers

/-!
The overlays of the interface against a plain stack of them (`open_overlay`,
`close_overlay`, `request_quit`, `cancel_quit`).

An overlay keeps the mode it was opened from on the stack; the quit question keeps
its own in a slot beside it.
-/

namespace HerdrWebui.Tui

/-- A mode without overlays, and the overlays over it, the last one first. -/
structure Contexts where
  base : TuiMode
  opened : List TuiMode
  deriving DecidableEq

namespace Contexts

/-- The overlay in front, or what is below all of them. -/
def mode (c : Contexts) : TuiMode := c.opened.head?.getD c.base

def pushed (overlay : TuiMode) (c : Contexts) : Contexts := { c with opened := overlay :: c.opened }

/-- Closing the one in front shows what it was opened from. -/
def popped (c : Contexts) : Contexts := { c with opened := c.opened.tail }

end Contexts

/-- `mode`, `overlay_stack` and `quit_prev_mode`. -/
structure Overlays where
  mode : TuiMode
  stack : List TuiMode
  quitPrev : TuiMode
  deriving DecidableEq

def TuiView.overlays (view : TuiView) : Overlays :=
  ⟨view.mode, view.overlayStack, view.quitPrevMode⟩

/-- The calls by which a key changes the overlays. -/
inductive OverlayCall where
  | opened (overlay : TuiMode)
  | quitAsked
  | closed
  | quitCancelled
  | left
  | attached
  | detached
  deriving DecidableEq

def Overlays.apply (o : Overlays) : OverlayCall → Overlays
  | .opened overlay => { o with mode := overlay, stack := o.mode :: o.stack }
  | .quitAsked => { o with mode := .confirmQuit, quitPrev := o.mode }
  | .closed => { o with mode := o.stack.head?.getD .navigate, stack := o.stack.tail }
  | .quitCancelled => { o with mode := o.quitPrev }
  | .left => { o with mode := .navigate, stack := [] }
  | .attached => { o with mode := .attach }
  | .detached => { o with mode := .navigate }

def Contexts.apply (c : Contexts) : OverlayCall → Contexts
  | .opened overlay => c.pushed overlay
  | .quitAsked => c.pushed .confirmQuit
  | .closed | .quitCancelled => c.popped
  | .left => ⟨.navigate, []⟩
  | .attached => { c with base := .attach }
  | .detached => { c with base := .navigate }

def TuiMode.isBase (mode : TuiMode) : Bool := mode == .navigate || mode == .attach

/-- The quit question is in front or below an overlay. -/
def Overlays.QuitOpen (o : Overlays) : Prop := o.mode = .confirmQuit ∨ .confirmQuit ∈ o.stack

/-- What the code checks, or takes for granted, before a call. -/
def OverlayCall.Allowed (o : Overlays) : OverlayCall → Prop
  | .opened overlay => overlay.isBase = false ∧ overlay ≠ .confirmQuit
  | .quitAsked => ¬o.QuitOpen
  | .closed => o.mode.isBase = false ∧ o.mode ≠ .confirmQuit
  | .quitCancelled => o.mode = .confirmQuit
  | .left => True
  | .attached | .detached => o.mode.isBase = true

/-- The modes that the overlays were opened from, without the quit question's. -/
def openers (base : TuiMode) : List TuiMode → List TuiMode
  | [] => []
  | overlay :: opened =>
    if overlay = .confirmQuit then openers base opened
    else (Contexts.mk base opened).mode :: openers base opened

/-- The code's mode, stack and slot are those of a stack of overlays. -/
structure Tracks (c : Contexts) (o : Overlays) : Prop where
  base : c.base.isBase = true
  overlays : ∀ overlay ∈ c.opened, overlay.isBase = false
  once : c.opened.count .confirmQuit ≤ 1
  mode : o.mode = c.mode
  stack : o.stack = openers c.base c.opened
  quit : ∀ front back, c.opened = front ++ .confirmQuit :: back →
    o.quitPrev = (Contexts.mk c.base back).mode

namespace Tracks

variable {c : Contexts} {o : Overlays}

theorem initial (mode : TuiMode) (hbase : mode.isBase = true) (quitPrev : TuiMode) :
    Tracks ⟨mode, []⟩ ⟨mode, [], quitPrev⟩ := by
  refine ⟨hbase, fun _ h => absurd h List.not_mem_nil, Nat.zero_le _, rfl, rfl, ?_⟩
  intro front back h
  exact absurd h.symm (List.append_ne_nil_of_right_ne_nil _ (List.cons_ne_nil _ _))

theorem opened_eq_nil (h : Tracks c o) (hbase : o.mode.isBase = true) : c.opened = [] := by
  cases hopened : c.opened with
  | nil => rfl
  | cons overlay opened =>
    have hoverlay := h.overlays overlay (by rw [hopened]; exact List.mem_cons_self)
    rw [h.mode, Contexts.mode, hopened, List.head?_cons, Option.getD_some, hoverlay] at hbase
    cases hbase

theorem exists_opened (h : Tracks c o) (hmode : o.mode.isBase = false) :
    ∃ opened, c.opened = o.mode :: opened := by
  rw [h.mode, Contexts.mode] at *
  cases hopened : c.opened with
  | nil =>
    rw [hopened, List.head?_nil, Option.getD_none, h.base] at hmode
    cases hmode
  | cons overlay opened => exact ⟨opened, rfl⟩

theorem quitOpen_of_mem (h : Tracks c o) (hmem : .confirmQuit ∈ c.opened) : o.QuitOpen := by
  rw [Overlays.QuitOpen, h.mode, h.stack, Contexts.mode]
  clear h
  generalize c.opened = opened at hmem ⊢
  induction opened with
  | nil => exact absurd hmem List.not_mem_nil
  | cons overlay opened ih =>
    by_cases hquit : overlay = .confirmQuit
    · exact .inl hquit
    · right
      rw [openers, if_neg hquit]
      rcases ih ((List.mem_cons.mp hmem).resolve_left (Ne.symm hquit)) with hfront | hstack
      · rw [← hfront]
        exact List.mem_cons_self
      · exact List.mem_cons_of_mem _ hstack

theorem apply (h : Tracks c o) {call : OverlayCall} (hallowed : call.Allowed o) :
    Tracks (c.apply call) (o.apply call) := by
  cases call with
  | opened overlay =>
    obtain ⟨hoverlay, hquit⟩ := hallowed
    refine ⟨h.base, ?_, ?_, rfl, ?_, ?_⟩
    · exact List.forall_mem_cons.mpr ⟨hoverlay, h.overlays⟩
    · rw [Contexts.apply, Contexts.pushed, List.count_cons_of_ne hquit]
      exact h.once
    · rw [Contexts.apply, Contexts.pushed, openers, if_neg hquit, Overlays.apply, h.mode, h.stack]
    · intro front back heq
      cases front with
      | nil => exact absurd (List.cons.inj heq).1 hquit
      | cons _ front => exact h.quit front back (List.cons.inj heq).2
  | quitAsked =>
    have hnone : .confirmQuit ∉ c.opened := fun hmem => hallowed (h.quitOpen_of_mem hmem)
    refine ⟨h.base, ?_, ?_, rfl, ?_, ?_⟩
    · exact List.forall_mem_cons.mpr ⟨rfl, h.overlays⟩
    · rw [Contexts.apply, Contexts.pushed, List.count_cons_self, List.count_eq_zero.mpr hnone]
    · rw [Contexts.apply, Contexts.pushed, openers, if_pos rfl]
      exact h.stack
    · intro front back heq
      cases front with
      | nil =>
        rw [← (List.cons.inj heq).2]
        exact h.mode
      | cons _ front =>
        have hmem : .confirmQuit ∈ c.opened := by
          rw [show c.opened = front ++ .confirmQuit :: back from (List.cons.inj heq).2]
          exact List.mem_append_right _ List.mem_cons_self
        exact absurd hmem hnone
  | closed =>
    obtain ⟨opened, hopened⟩ := h.exists_opened hallowed.1
    have hcount := h.once
    have hstack := h.stack
    rw [hopened, openers, if_neg hallowed.2] at hstack
    refine ⟨h.base, ?_, ?_, ?_, ?_, ?_⟩
    · intro overlay hmem
      exact h.overlays overlay (List.mem_of_mem_tail hmem)
    · exact (List.Sublist.count_le _ (List.tail_sublist _)).trans h.once
    · rw [Overlays.apply, hstack, Contexts.apply, Contexts.popped, hopened]
      rfl
    · rw [Overlays.apply, hstack, Contexts.apply, Contexts.popped, hopened]
      rfl
    · intro front back heq
      rw [Contexts.apply, Contexts.popped, hopened, List.tail_cons] at heq
      exact h.quit (o.mode :: front) back (hopened.trans (congrArg (o.mode :: ·) heq))
  | quitCancelled =>
    obtain ⟨opened, hopened⟩ := h.exists_opened (by rw [hallowed]; rfl)
    rw [hallowed] at hopened
    have hstack := h.stack
    rw [hopened, openers, if_pos rfl] at hstack
    have hcount := h.once
    rw [hopened, List.count_cons_self] at hcount
    refine ⟨h.base, ?_, ?_, ?_, ?_, ?_⟩
    · intro overlay hmem
      exact h.overlays overlay (List.mem_of_mem_tail hmem)
    · exact (List.Sublist.count_le _ (List.tail_sublist _)).trans h.once
    · rw [Contexts.apply, Contexts.popped, hopened]
      exact h.quit [] opened hopened
    · rw [Contexts.apply, Contexts.popped, hopened]
      exact hstack
    · intro front back heq
      rw [Contexts.apply, Contexts.popped, hopened, List.tail_cons] at heq
      rw [show opened = front ++ .confirmQuit :: back from heq, List.count_append,
        List.count_cons_self] at hcount
      omega
  | left => exact initial .navigate rfl o.quitPrev
  | attached =>
    have hnil := h.opened_eq_nil hallowed
    have hstack := h.stack
    rw [hnil] at hstack
    have heq : c.apply .attached = ⟨.attach, []⟩ := by rw [Contexts.apply, hnil]
    rw [heq, Overlays.apply, hstack]
    exact initial .attach rfl o.quitPrev
  | detached =>
    have hnil := h.opened_eq_nil hallowed
    have hstack := h.stack
    rw [hnil] at hstack
    have heq : c.apply .detached = ⟨.navigate, []⟩ := by rw [Contexts.apply, hnil]
    rw [heq, Overlays.apply, hstack]
    exact initial .navigate rfl o.quitPrev

end Tracks

/-- An overlay that is opened unless it is in front already. -/
def ensured (overlay : TuiMode) (view : TuiView) : Option OverlayCall :=
  if view.mode = overlay then none else some (.opened overlay)

namespace TuiApp

/-- `retarget_session` leaves the overlays, unless it is for the current session. -/
def retargetCall (name backend : String) (app : TuiApp) : Option OverlayCall :=
  if name = app.currentSession ∧ backend = app.currentBackend then none else some .left

/-- `run_shortcut`. -/
def shortcutCall (w : KeyWorld) (app : TuiApp) : Shortcut → Option OverlayCall
  | .help => some (.opened .help)
  | .settings => some (.opened .settings)
  | .search => ensured .searchPalette app.toTuiView
  | .newWorkspace | .openWorktrees =>
    if w.accepted then ensured .worktreeList app.toTuiView else none
  | .gitSwitchBranch =>
    if app.selection.workspace.any (·.cwd ≠ "") ∧ w.accepted then
      ensured .branchPicker app.toTuiView
    else none
  | .sessionManager => ensured .sessionManager app.toTuiView
  | .quit => some .quitAsked
  | _ => none

/-- `handle_prompt_key`: only an accepted prompt for a session has one. -/
def promptCall (w : KeyWorld) (key : KeyEvent) (app : TuiApp) : Option OverlayCall :=
  match app.promptInput with
  | none => none
  | some prompt =>
    if key.code ≠ .enter then none
    else if prompt.kind.needsConfirm && !confirms prompt.kind (trim prompt.text) then none
    else
      match prompt.kind, w.prompt with
      | .composerMessage, _ | .confirmCloseWorkspace, _ => none
      | _, .session name => app.retargetCall name "builtin"
      | _, _ => none

/-- `handle_panel_key`. -/
def panelCall (w : KeyWorld) : Option OverlayCall :=
  match w.panel with
  | .help => some (.opened .help)
  | _ => none

/-- The keys of `handle_navigation_key` that ask to quit or for help. -/
def navigationViewCall (key : KeyEvent) : Option OverlayCall :=
  if key.code = .esc ∨ isChar key ['q'] then some .quitAsked
  else if isChar key ['?'] then some (.opened .help)
  else none

/-- `handle_navigation_key`. -/
def navigationCall (w : KeyWorld) (key : KeyEvent) (app : TuiApp) : Option OverlayCall :=
  if app.screen ≠ .terminal then panelCall w
  else if key.code = .enter then (if app.selection.pane.isSome then some .attached else none)
  else if isChar key ['r'] then none
  else if app.mainFocused then navigationViewCall key
  else if key.code = .down ∨ isChar key ['j'] ∨ key.code = .up ∨ isChar key ['k'] ∨
      key.code = .pageUp ∨ key.code = .pageDown then none
  else navigationViewCall key

/-- The overlay or the screen that a key gets to behind the input layers. -/
def modeCall (w : KeyWorld) (key : KeyEvent) (app : TuiApp) : Option OverlayCall :=
  match app.mode with
  | .help =>
    match key.code with
    | .esc => if app.helpFilter = [] then some .closed else none
    | .char ch => if ch = '?' then some .closed else none
    | _ => none
  | .confirmQuit => if key.code = .esc ∨ isChar key ['n', 'q'] then some .quitCancelled else none
  | .settings => if key.code = .esc ∨ isChar key ['q', 's'] then some .closed else none
  | .worktreeList =>
    match w.browser with
    | .closed | .staged => some .closed
    | .opened _ => if w.snapshot.isSome then some .left else none
    | _ => none
  | .branchPicker =>
    match w.picker with
    | .closed | .switched _ => some .closed
    | .rerouted _ => if w.snapshot.isSome then some .left else none
    | .nothing => none
  | .searchPalette =>
    match w.palette with
    | .nothing => none
    | _ => some .closed
  | .sessionManager =>
    match w.sessions with
    | .closed => some .closed
    | .target name backend => app.retargetCall name backend
    | _ => none
  | .navigate => app.navigationCall w key
  | .attach =>
    if app.screen ≠ .terminal then panelCall w
    else if key.control ∧ key.code = .char 'g' ∨ app.selection.pane = none then some .detached
    else none

/-- The commit input, the prompt or the lens takes the key. -/
def TakenByInput (app : TuiApp) : Prop :=
  app.commitInput.isSome ∨ app.promptInput.isSome ∨
    (app.buffers.lens.active = true ∧ app.screen = .terminal)

instance (app : TuiApp) : Decidable app.TakenByInput := inferInstanceAs (Decidable (_ ∨ _ ∨ _))

def unprefixedCall (w : KeyWorld) (key : KeyEvent) (app : TuiApp) : Option OverlayCall :=
  if app.commitInput.isSome then none
  else if app.promptInput.isSome then app.promptCall w key
  else if app.TakenByInput then none
  else app.modeCall w key

/-- `handle_key`. -/
def keyCall (w : KeyWorld) (key : KeyEvent) (app : TuiApp) : Option OverlayCall :=
  let fed := feedPrefix app.now app.prefixArmedAt key
  match fed.2 with
  | some shortcut => app.shortcutCall w shortcut
  | none => if isArmed app.now fed.1 then none else app.unprefixedCall w key

end TuiApp

/-- What a call leads to, where one is made. -/
def Overlays.applied (o : Overlays) (call : Option OverlayCall) : Overlays :=
  call.elim o o.apply

namespace TuiApp

theorem overlays_of_sameLayers {view view' : TuiView} (h : view.SameLayers view') :
    view'.overlays = view.overlays := by
  rw [TuiView.overlays, TuiView.overlays, h.mode, h.stack, h.quit]

theorem overlays_tryRefresh (w : World) (app : TuiApp) :
    (app.tryRefresh w).overlays = app.overlays := by
  rw [tryRefresh, refresh]
  cases w.snapshot with
  | none => rfl
  | some snapshot => exact overlays_of_sameLayers (app.applyRefresh_layers w snapshot)

theorem ingestTerminalOutput_layers (text : TerminalText) (output : TerminalOutput)
    (app : TuiApp) : app.SameLayers (app.ingestTerminalOutput text output).toTuiView := by
  rw [ingestTerminalOutput]
  exact ⟨rfl, rfl, rfl, rfl⟩

theorem overlays_movePanel (w : World) (delta : Int) (app : TuiApp) :
    (app.movePanel w delta).overlays = app.overlays := by
  rw [movePanel]
  split <;> rfl

theorem overlays_focusWorkspaceById (w : World) (id : String) (app : TuiApp) :
    (app.focusWorkspaceById w id).overlays = app.overlays := by
  rw [focusWorkspaceById]
  split <;> rfl

theorem overlays_selectSearchTarget (w : World) (i : Nat)
    (workspaceId tabId paneId : Option String) (app : TuiApp) :
    (app.selectSearchTarget w i workspaceId tabId paneId).overlays = app.overlays := by
  rw [selectSearchTarget]
  split <;> rfl

theorem overlays_requestThenRefresh (w : World) (app : TuiApp) :
    (app.requestThenRefresh w).overlays = app.overlays := by
  rw [requestThenRefresh]
  split
  · exact overlays_tryRefresh w app
  · rfl

theorem overlays_closeSelectedTab (w : World) (app : TuiApp) :
    (app.closeSelectedTab w).overlays = app.overlays := by
  rw [closeSelectedTab]
  split
  · exact overlays_tryRefresh w app
  · rfl

theorem overlays_refreshActiveScreen (w : World) (app : TuiApp) :
    (app.refreshActiveScreen w).overlays = app.overlays := by
  rw [refreshActiveScreen]
  split
  · exact overlays_tryRefresh w app
  · rfl

theorem overlays_retargetSession (w : World) (name backend : String) (app : TuiApp) :
    (app.retargetSession w name backend).overlays =
      app.overlays.applied (app.retargetCall name backend) := by
  rw [retargetSession, retargetCall]
  split
  · rfl
  · have hretarget : ((app.onView (retargetView name backend)).tryRefresh w).overlays =
        app.overlays.apply .left := overlays_tryRefresh w _
    exact hretarget

theorem overlays_openCheckout (w : World) (path : String) (isOpened : TuiWorkspace → Bool)
    (app : TuiApp) :
    (app.openCheckout w path isOpened).overlays =
      app.overlays.applied (if w.snapshot.isSome then some .left else none) := by
  rw [openCheckout, refresh]
  cases w.snapshot with
  | none => rfl
  | some snapshot =>
    have hkept := overlays_of_sameLayers (app.applyRefresh_layers w snapshot)
    have hquit : (app.applyRefresh w snapshot).quitPrevMode = app.quitPrevMode :=
      congrArg Overlays.quitPrev hkept
    have hleft (landed : TuiApp) (view : TuiView)
        (hlanded : landed.quitPrevMode = app.quitPrevMode)
        (hview : view.overlays = landed.toTuiView.leaveOverlays.overlays) :
        view.overlays = app.overlays.apply .left := by
      rw [hview]
      exact congrArg (Overlays.mk .navigate []) hlanded
    simp only [Option.map_some]
    split
    · exact hleft _ _ hquit rfl
    · next workspace _ =>
        refine hleft _ _ ?_ rfl
        exact (congrArg Overlays.quitPrev
          (overlays_focusWorkspaceById w workspace.id _)).trans hquit

theorem overlays_runShortcut (w : KeyWorld) (app : TuiApp) (shortcut : Shortcut) :
    (app.runShortcut w shortcut).1.overlays =
      app.overlays.applied (app.shortcutCall w shortcut) := by
  have hensured (overlay : TuiMode) :
      (app.onView (TuiView.ensureOverlay overlay)).overlays =
        app.overlays.applied (ensured overlay app.toTuiView) := by
    rw [ensured, onView, TuiView.ensureOverlay]
    split <;> rfl
  cases shortcut <;> simp only [runShortcut, shortcutCall]
  case search | sessionManager => exact hensured _
  case refresh => exact overlays_refreshActiveScreen w.toWorld app
  case nextPanel | prevPanel => exact overlays_movePanel w.toWorld _ app
  case closeTab => exact overlays_closeSelectedTab w.toWorld app
  case newTab =>
    split
    · exact overlays_requestThenRefresh w.toWorld app
    · rfl
  case newWorkspace | openWorktrees =>
    split
    · exact hensured _
    · rfl
  case removeWorktree =>
    split
    · exact overlays_requestThenRefresh w.toWorld app
    · rfl
  case gitSwitchBranch =>
    split
    · exact hensured _
    · rfl
  case composer =>
    rw [openComposer]
    split <;> rfl
  case lens =>
    rw [onView, toggleLens]
    split <;> rfl
  case editFile | gitDiscardFile | gitStageAll => split <;> rfl
  case focusNext | focusPrev =>
    rw [onView, TuiView.walkFocus]
    split <;> rfl
  all_goals rfl

theorem overlays_submitComposerMessage (w : World) (text : String) (app : TuiApp) :
    (app.submitComposerMessage w text).1.overlays = app.overlays := by
  rw [submitComposerMessage]
  split
  · rfl
  · dsimp only
    split
    · rfl
    · split <;> rfl

theorem overlays_closeWorkspace (w : World) (app : TuiApp) :
    (app.closeWorkspace w).1.overlays = app.overlays := by
  rw [closeWorkspace]
  split
  · rfl
  · dsimp only
    split
    · rw [refresh]
      cases w.snapshot with
      | none => rfl
      | some snapshot =>
        have hkept := overlays_of_sameLayers (app.applyRefresh_layers w snapshot)
        exact hkept
    · rfl

theorem overlays_invalidateStamps (repos : List String) (app : TuiApp) :
    (repos.foldl (fun app repo => app.invalidateStamp repo) app).overlays = app.overlays := by
  induction repos generalizing app with
  | nil => rfl
  | cons repo repos ih => exact ih (app.invalidateStamp repo)

theorem overlays_otherPromptAction (w : KeyWorld) (app : TuiApp) :
    (app.otherPromptAction w).overlays =
      app.overlays.applied
        (match w.prompt with
          | .session name => app.retargetCall name "builtin"
          | _ => none) := by
  rw [otherPromptAction]
  cases w.prompt with
  | nothing => rfl
  | reopened kind => rfl
  | refreshed => exact overlays_tryRefresh w.toWorld app
  | created id =>
    dsimp only
    rw [refresh]
    cases w.snapshot with
    | none => rfl
    | some snapshot =>
      exact (overlays_focusWorkspaceById w.toWorld id _).trans
        (overlays_of_sameLayers (app.applyRefresh_layers w.toWorld snapshot))
  | invalidated repos => exact overlays_invalidateStamps repos app
  | session name => exact overlays_retargetSession w.toWorld name "builtin" app

theorem overlays_handlePromptKey (w : KeyWorld) (key : KeyEvent) (app : TuiApp) :
    (app.handlePromptKey w key).1.overlays = app.overlays.applied (app.promptCall w key) := by
  rw [handlePromptKey, promptCall]
  cases hprompt : app.promptInput with
  | none => rfl
  | some prompt =>
    dsimp only
    by_cases hesc : key.code = .esc
    · have henter : key.code ≠ .enter := by rw [hesc]; decide
      rw [if_pos hesc, if_pos henter]
      rfl
    · rw [if_neg hesc]
      by_cases henter : key.code = .enter
      · rw [if_pos henter, if_neg (not_not.mpr henter)]
        split
        · rfl
        · obtain ⟨kind, text⟩ := prompt
          cases kind
          case composerMessage => exact overlays_submitComposerMessage w.toWorld _ _
          case confirmCloseWorkspace => exact overlays_closeWorkspace w.toWorld _
          all_goals
            refine (overlays_otherPromptAction w (app.onView TuiView.withoutPrompt)).trans ?_
            cases w.prompt <;> rfl
      · rw [if_neg henter, if_pos henter]
        split
        · rfl
        · rw [syncComposerDraft]
          split
          · split <;> rfl
          · rfl

theorem overlays_handlePanelKey (w : KeyWorld) (app : TuiApp) :
    (app.handlePanelKey w).overlays = app.overlays.applied (panelCall w) := by
  rw [handlePanelKey, panelCall]
  cases w.panel <;> rfl

theorem overlays_navigationView (key : KeyEvent) (view : TuiView) :
    (navigationView key view).overlays = view.overlays.applied (navigationViewCall key) := by
  rw [navigationView, navigationViewCall]
  split
  · rfl
  · split
    · rfl
    · split
      · rfl
      · split
        · rfl
        · split <;> rfl

theorem overlays_scrollPaneUp (w : KeyWorld) (delta : Nat) (view : TuiView) :
    (view.scrollPaneUp w delta).overlays = view.overlays := rfl

theorem overlays_scrollPaneDown (delta : Nat) (view : TuiView) :
    (view.scrollPaneDown delta).overlays = view.overlays := rfl

theorem overlays_scrollLensUp (w : KeyWorld) (delta : Nat) (view : TuiView) :
    (view.scrollLensUp w delta).overlays = view.overlays := rfl

theorem overlays_withLens (f : LensState → LensState) (view : TuiView) :
    (view.withLens f).overlays = view.overlays := rfl

theorem overlays_scrollKey (w : KeyWorld) (key : KeyEvent) (view : TuiView) :
    (scrollKey w key view).overlays = view.overlays := by
  rw [scrollKey]
  repeat' split
  all_goals first
    | exact overlays_scrollPaneUp w _ view
    | exact overlays_scrollPaneDown _ view
    | exact Eq.refl view.overlays

theorem overlays_attachSelected (w : World) (app : TuiApp) :
    (app.attachSelected w).1.overlays =
      app.overlays.applied (if app.selection.pane.isSome then some .attached else none) := by
  rw [attachSelected]
  cases hpane : app.selection.pane with
  | none => rfl
  | some pane =>
    dsimp only
    rw [loadSelectedTerminalHistory]
    cases w.output with
    | none => rfl
    | some output =>
      dsimp only
      rw [overlays_of_sameLayers (ingestTerminalOutput_layers w.text output _)]
      rfl

theorem overlays_handleNavigationKey (w : KeyWorld) (key : KeyEvent) (app : TuiApp) :
    (app.handleNavigationKey w key).1.overlays =
      app.overlays.applied (app.navigationCall w key) := by
  rw [handleNavigationKey, navigationCall]
  by_cases hscreen : app.screen ≠ .terminal
  · rw [if_pos hscreen, if_pos hscreen]
    exact overlays_handlePanelKey w app
  rw [if_neg hscreen, if_neg hscreen]
  by_cases henter : key.code = .enter
  · rw [if_pos henter, if_pos henter]
    exact overlays_attachSelected w.toWorld app
  rw [if_neg henter, if_neg henter]
  by_cases hreload : isChar key ['r'] = true
  · rw [if_pos hreload, if_pos hreload]
    exact overlays_refreshActiveScreen w.toWorld app
  rw [if_neg hreload, if_neg hreload]
  by_cases hmain : app.mainFocused = true
  · rw [if_pos hmain, if_pos hmain]
    exact (overlays_scrollKey w key _).trans (overlays_navigationView key app.toTuiView)
  rw [if_neg hmain, if_neg hmain]
  by_cases hdown : key.code = .down ∨ isChar key ['j'] = true
  · rw [if_pos hdown, if_pos (hdown.imp id .inl)]
    rfl
  rw [if_neg hdown]
  by_cases hup : key.code = .up ∨ isChar key ['k'] = true
  · rw [if_pos hup, if_pos (.inr (.inr (hup.imp id .inl)))]
    rfl
  rw [if_neg hup]
  by_cases hpageUp : key.code = .pageUp
  · rw [if_pos hpageUp, if_pos (.inr (.inr (.inr (.inr (.inl hpageUp)))))]
    rfl
  rw [if_neg hpageUp]
  by_cases hpageDown : key.code = .pageDown
  · rw [if_pos hpageDown, if_pos (.inr (.inr (.inr (.inr (.inr hpageDown)))))]
    rfl
  have hnone : ¬(key.code = .down ∨ isChar key ['j'] = true ∨ key.code = .up ∨
      isChar key ['k'] = true ∨ key.code = .pageUp ∨ key.code = .pageDown) := by
    tauto
  rw [if_neg hpageDown, if_neg hnone]
  exact overlays_navigationView key app.toTuiView

theorem overlays_handleAttachKey (w : World) (key : KeyEvent) (app : TuiApp) :
    (app.handleAttachKey w key).1.overlays =
      app.overlays.applied
        (if key.control ∧ key.code = .char 'g' ∨ app.selection.pane = none then some .detached
          else none) := by
  rw [handleAttachKey]
  by_cases hleave : key.control = true ∧ key.code = .char 'g'
  · rw [if_pos hleave, if_pos (.inl hleave)]
    rfl
  rw [if_neg hleave]
  cases hpane : app.selection.pane with
  | none =>
    rw [if_pos (.inr rfl)]
    rfl
  | some pane =>
    rw [if_neg (by simpa using hleave)]
    dsimp only
    split
    · rfl
    · split <;> rfl

theorem handleUnprefixed_of_not_takenByInput {w : KeyWorld} {key : KeyEvent} {app : TuiApp}
    (hinput : ¬app.TakenByInput) :
    app.handleUnprefixed w key =
      match app.mode with
      | .help => (app.onView (TuiView.handleHelpKey key), [])
      | .confirmQuit => (app.onView (TuiView.handleConfirmQuitKey key), [])
      | .settings => (app.onView (TuiView.handleSettingsKey key), [])
      | .worktreeList => (app.handleWorktreeListKey w, [])
      | .branchPicker => (app.handleBranchPickerKey w, [])
      | .searchPalette => (app.handleSearchPaletteKey w, [])
      | .sessionManager => (app.handleSessionManagerKey w, [])
      | .navigate => app.handleNavigationKey w key
      | .attach =>
        if app.screen = .terminal then app.handleAttachKey w.toWorld key
        else (app.handlePanelKey w, []) := by
  rw [TakenByInput, not_or, not_or] at hinput
  rw [handleUnprefixed, if_neg hinput.1, if_neg hinput.2.1, if_neg hinput.2.2]
  all_goals cases app.mode <;> rfl

theorem overlays_handleMode (w : KeyWorld) (key : KeyEvent) (app : TuiApp)
    (hinput : ¬app.TakenByInput) :
    (app.handleUnprefixed w key).1.overlays = app.overlays.applied (app.modeCall w key) := by
  rw [handleUnprefixed_of_not_takenByInput hinput, modeCall]
  cases hmode : app.mode with
  | help =>
    change (TuiView.handleHelpKey key app.toTuiView).overlays = _
    rw [TuiView.handleHelpKey]
    cases key.code with
    | esc =>
      dsimp only
      split <;> rfl
    | char ch =>
      dsimp only
      by_cases hask : ch = '?'
      · rw [if_pos hask, if_pos hask]
        rfl
      · rw [if_neg hask, if_neg hask]
        repeat' split
        all_goals rfl
    | _ => rfl
  | confirmQuit =>
    change (TuiView.handleConfirmQuitKey key app.toTuiView).overlays = _
    rw [TuiView.handleConfirmQuitKey]
    split <;> rfl
  | settings =>
    change (TuiView.handleSettingsKey key app.toTuiView).overlays = _
    rw [TuiView.handleSettingsKey]
    split <;> rfl
  | worktreeList =>
    dsimp only
    rw [handleWorktreeListKey]
    cases w.browser with
    | opened path => exact overlays_openCheckout w.toWorld path _ app
    | nothing | closed | prompt | staged => rfl
  | branchPicker =>
    dsimp only
    rw [handleBranchPickerKey]
    cases w.picker with
    | rerouted path => exact overlays_openCheckout w.toWorld path _ app
    | switched root =>
      have hkept := overlays_tryRefresh w.toWorld (app.invalidateStamp root)
      exact congrArg (Overlays.apply · .closed) hkept
    | nothing | closed => rfl
  | searchPalette =>
    dsimp only
    rw [handleSearchPaletteKey]
    cases w.palette with
    | nothing | closed | file => rfl
    | workspace id => exact overlays_selectSearchTarget w.toWorld 0 _ _ _ _
    | panel id workspaceId => exact overlays_selectSearchTarget w.toWorld 0 _ _ _ _
    | agent paneId => exact overlays_selectSearchTarget w.toWorld 0 _ _ _ _
    | recent workspaceId tabId paneId =>
      dsimp only
      rw [refresh]
      cases w.snapshot with
      | none => rfl
      | some snapshot =>
        exact (overlays_selectSearchTarget w.toWorld 1 _ _ _ _).trans
          (overlays_of_sameLayers (applyRefresh_layers w.toWorld snapshot _))
  | sessionManager =>
    dsimp only
    rw [handleSessionManagerKey]
    cases w.sessions with
    | target name backend => exact overlays_retargetSession w.toWorld name backend app
    | nothing | closed | prompt => rfl
  | navigate => exact overlays_handleNavigationKey w key app
  | attach =>
    dsimp only
    by_cases hscreen : app.screen = .terminal
    · rw [if_pos hscreen, if_neg (not_not.mpr hscreen)]
      exact overlays_handleAttachKey w.toWorld key app
    · rw [if_neg hscreen, if_pos hscreen]
      exact overlays_handlePanelKey w app

theorem overlays_handleCommitKey (key : KeyEvent) (view : TuiView) :
    (view.handleCommitKey key).overlays = view.overlays := by
  rw [TuiView.handleCommitKey]
  split
  · rfl
  · split <;> rfl

theorem overlays_handleLensKey (w : KeyWorld) (key : KeyEvent) (view : TuiView) :
    (view.handleLensKey w key).overlays = view.overlays := by
  rw [TuiView.handleLensKey]
  repeat' split
  all_goals first
    | exact overlays_withLens _ view
    | exact overlays_scrollLensUp w _ view
    | exact Eq.refl view.overlays

theorem overlays_handleUnprefixed (w : KeyWorld) (key : KeyEvent) (app : TuiApp) :
    (app.handleUnprefixed w key).1.overlays =
      app.overlays.applied (app.unprefixedCall w key) := by
  rw [unprefixedCall]
  by_cases hcommit : app.commitInput.isSome = true
  · rw [if_pos hcommit, handleUnprefixed, if_pos hcommit]
    exact overlays_handleCommitKey key app.toTuiView
  rw [if_neg hcommit]
  by_cases hprompt : app.promptInput.isSome = true
  · rw [if_pos hprompt, handleUnprefixed, if_neg hcommit, if_pos hprompt]
    exact overlays_handlePromptKey w key app
  rw [if_neg hprompt]
  by_cases hlens : app.buffers.lens.active = true ∧ app.screen = .terminal
  · rw [if_pos (.inr (.inr hlens)), handleUnprefixed, if_neg hcommit, if_neg hprompt,
      if_pos hlens]
    exact overlays_handleLensKey w key app.toTuiView
  have hinput : ¬app.TakenByInput := not_or.mpr ⟨hcommit, not_or.mpr ⟨hprompt, hlens⟩⟩
  rw [if_neg hinput]
  exact overlays_handleMode w key app hinput

theorem overlays_handleKey (w : KeyWorld) (key : KeyEvent) (app : TuiApp) :
    (app.handleKey w key).1.overlays = app.overlays.applied (app.keyCall w key) := by
  rw [handleKey, keyCall]
  cases (feedPrefix app.now app.prefixArmedAt key).2 with
  | some shortcut => exact overlays_runShortcut w _ shortcut
  | none =>
    dsimp only
    change (if isArmed app.now (feedPrefix app.now app.prefixArmedAt key).1 = true then _
      else _ : Handled).1.overlays = _
    by_cases harmed : isArmed app.now (feedPrefix app.now app.prefixArmedAt key).1 = true
    · rw [if_pos harmed, if_pos harmed]
      rfl
    · rw [if_neg harmed, if_neg harmed]
      exact overlays_handleUnprefixed w key _

end TuiApp

namespace TuiApp

variable {w : KeyWorld} {key : KeyEvent} {app : TuiApp} {call : OverlayCall}

theorem opened_allowed (o : Overlays) {overlay : TuiMode} (hbase : overlay.isBase = false)
    (hquit : overlay ≠ .confirmQuit) : (OverlayCall.opened overlay).Allowed o := ⟨hbase, hquit⟩

theorem ensured_allowed {overlay : TuiMode} (hbase : overlay.isBase = false)
    (hquit : overlay ≠ .confirmQuit) (h : ensured overlay app.toTuiView = some call)
    (o : Overlays) : call.Allowed o := by
  rw [ensured] at h
  split at h
  · cases h
  · cases h
    exact opened_allowed o hbase hquit

theorem retargetCall_allowed {name backend : String}
    (h : app.retargetCall name backend = some call) (o : Overlays) : call.Allowed o := by
  rw [retargetCall] at h
  split at h
  · cases h
  · cases h
    trivial

theorem shortcutCall_allowed {shortcut : Shortcut}
    (hquit : shortcut = .quit → ¬app.overlays.QuitOpen)
    (h : app.shortcutCall w shortcut = some call) : call.Allowed app.overlays := by
  cases shortcut <;> simp only [shortcutCall] at h
  case help | settings =>
    cases h
    exact opened_allowed _ rfl (by decide)
  case quit =>
    cases h
    exact hquit rfl
  case search | sessionManager => exact ensured_allowed rfl (by decide) h _
  case newWorkspace | openWorktrees | gitSwitchBranch =>
    split at h
    · exact ensured_allowed rfl (by decide) h _
    · cases h
  all_goals cases h

theorem promptCall_allowed (h : app.promptCall w key = some call) (o : Overlays) :
    call.Allowed o := by
  rw [promptCall] at h
  repeat' split at h
  all_goals first
    | exact retargetCall_allowed h o
    | cases h

theorem panelCall_allowed (h : panelCall w = some call) (o : Overlays) : call.Allowed o := by
  rw [panelCall] at h
  split at h
  · cases h
    exact opened_allowed o rfl (by decide)
  · cases h

theorem navigationViewCall_allowed {o : Overlays} (hopen : ¬o.QuitOpen)
    (h : navigationViewCall key = some call) : call.Allowed o := by
  rw [navigationViewCall] at h
  split at h
  · cases h
    exact hopen
  · split at h
    · cases h
      exact opened_allowed o rfl (by decide)
    · cases h

theorem navigationCall_allowed {o : Overlays} (hmode : o.mode.isBase = true)
    (hopen : ¬o.QuitOpen) (h : app.navigationCall w key = some call) : call.Allowed o := by
  rw [navigationCall] at h
  split at h
  · exact panelCall_allowed h o
  split at h
  · split at h
    · cases h
      exact hmode
    · cases h
  split at h
  · cases h
  split at h
  · exact navigationViewCall_allowed hopen h
  split at h
  · cases h
  · exact navigationViewCall_allowed hopen h

theorem modeCall_allowed {c : Contexts} (htracks : Tracks c app.overlays)
    (h : app.modeCall w key = some call) : call.Allowed app.overlays := by
  have hfront : app.overlays.mode = app.mode := rfl
  have hopen (hbase : app.mode.isBase = true) : ¬app.overlays.QuitOpen := by
    rintro (hmode | hstack)
    · rw [hfront] at hmode
      rw [hmode] at hbase
      cases hbase
    · rw [htracks.stack, htracks.opened_eq_nil hbase] at hstack
      exact absurd hstack List.not_mem_nil
  have hclosed (hbase : app.mode.isBase = false) (hquit : app.mode ≠ .confirmQuit) :
      OverlayCall.closed.Allowed app.overlays := ⟨hbase, hquit⟩
  rw [modeCall] at h
  cases hmode : app.mode <;> rw [hmode] at h hclosed hopen <;> dsimp only at h
  case navigate => exact navigationCall_allowed (by rw [hfront, hmode]; rfl) (hopen rfl) h
  case attach =>
    split at h
    · exact panelCall_allowed h _
    · split at h
      · cases h
        change app.overlays.mode.isBase = true
        rw [hfront, hmode]
        rfl
      · cases h
  case help =>
    repeat' split at h
    all_goals first
      | cases h; exact hclosed rfl (by decide)
      | cases h
  case confirmQuit =>
    split at h
    · cases h
      exact hmode
    · cases h
  case settings =>
    split at h
    · cases h
      exact hclosed rfl (by decide)
    · cases h
  case worktreeList | branchPicker | searchPalette | sessionManager =>
    repeat' split at h
    all_goals first
      | exact retargetCall_allowed h _
      | cases h; exact hclosed rfl (by decide)
      | cases h; trivial
      | cases h

theorem keyCall_allowed {c : Contexts} (htracks : Tracks c app.overlays)
    (hquit : (feedPrefix app.now app.prefixArmedAt key).2 = some .quit →
      ¬app.overlays.QuitOpen)
    (h : app.keyCall w key = some call) : call.Allowed app.overlays := by
  rw [keyCall] at h
  split at h
  · next shortcut hfed =>
      refine shortcutCall_allowed (fun heq => ?_) h
      rw [heq] at hfed
      exact hquit hfed
  · split at h
    · cases h
    · rw [unprefixedCall] at h
      split at h
      · cases h
      split at h
      · exact promptCall_allowed h _
      split at h
      · cases h
      · exact modeCall_allowed htracks h

theorem overlays_pollRefresh (w : World) (app : TuiApp) :
    (app.pollRefresh w).overlays = app.overlays := by
  have hpolled : (app.pollStampFetches w).overlays = app.overlays :=
    overlays_of_sameLayers (withBoard_layers _ app)
  unfold pollRefresh
  generalize app.pollStampFetches w = polled at hpolled ⊢
  rw [← hpolled]
  dsimp only
  cases polled.refreshInflight with
  | none => rfl
  | some receiver =>
    cases receiver with
    | asked => rfl
    | died => rfl
    | landed snapshot =>
      cases snapshot with
      | none => rfl
      | some snapshot =>
        have hkept := overlays_of_sameLayers
          (applyRefresh_layers w snapshot { polled with refreshInflight := none })
        exact hkept

theorem overlays_refreshIfDue (w : World) (app : TuiApp) :
    (app.refreshIfDue w).overlays = app.overlays := by
  have hpolled := overlays_pollRefresh w app
  unfold refreshIfDue
  generalize app.pollRefresh w = polled at hpolled ⊢
  rw [← hpolled]
  dsimp only
  split
  · split <;> rfl
  · split <;> rfl

end TuiApp

open Concurrency

/-- The interface with the filters that Esc clears first (`worktree_filter`,
`branch_picker_filter`), beside the overlays that were opened. -/
structure OverlayApp where
  app : TuiApp
  worktreeFilter : List Char
  branchFilter : List Char
  contexts : Contexts

/-- A key, with what the filters are after one that is not Esc, or what happens besides. -/
inductive OverlayAction where
  | key (w : KeyWorld) (key : KeyEvent) (worktreeFilter branchFilter : List Char)
  | tick (w : World)
  | elapse (milliseconds : Nat)
  | output (text : TerminalText) (output : TerminalOutput)

namespace OverlayApp

def FrontIs (mode : TuiMode) (s : OverlayApp) : Prop := ¬s.app.TakenByInput ∧ s.app.mode = mode

instance (mode : TuiMode) (s : OverlayApp) : Decidable (s.FrontIs mode) :=
  inferInstanceAs (Decidable (_ ∧ _))

/-- What Esc is to the overlays with rows: it closes them, or clears a filter first. -/
def onEsc (w : KeyWorld) (s : OverlayApp) : KeyWorld :=
  { w with
    browser := if s.worktreeFilter = [] then .closed else .nothing
    picker := if s.branchFilter = [] then .closed else .nothing
    palette := .closed
    sessions := .closed }

def handleKey (w : KeyWorld) (key : KeyEvent) (worktreeFilter branchFilter : List Char)
    (s : OverlayApp) : OverlayApp :=
  let w := if key.code = .esc then s.onEsc w else w
  { app := (s.app.handleKey w key).1
    worktreeFilter :=
      if key.code ≠ .esc then worktreeFilter
      else if s.FrontIs .worktreeList then [] else s.worktreeFilter
    branchFilter :=
      if key.code ≠ .esc then branchFilter
      else if s.FrontIs .branchPicker then [] else s.branchFilter
    contexts := (s.app.keyCall w key).elim s.contexts s.contexts.apply }

def step (s : OverlayApp) : OverlayAction → OverlayApp
  | .key w key worktreeFilter branchFilter => s.handleKey w key worktreeFilter branchFilter
  | .tick w => { s with app := s.app.refreshIfDue w }
  | .elapse milliseconds =>
    { s with app := s.app.onView fun view => { view with now := view.now + milliseconds } }
  | .output text output => { s with app := s.app.ingestTerminalOutput text output }

def start (refreshInterval : Nat) (session : String) : OverlayApp :=
  ⟨TuiApp.start refreshInterval session, [], [], ⟨.navigate, []⟩⟩

def esc : KeyEvent := ⟨.esc, false, false⟩

def escape (w : KeyWorld) (s : OverlayApp) : OverlayApp := s.handleKey w esc [] []

def escapes (worlds : Nat → KeyWorld) : Nat → OverlayApp → OverlayApp
  | 0, s => s
  | n + 1, s => (s.escapes worlds n).escape (worlds n)

end OverlayApp

def overlaySystem : System OverlayApp OverlayAction where
  init s := ∃ refreshInterval session, s = OverlayApp.start refreshInterval session
  step s a := some (s.step a)

/-- The quit question is not asked while it is open, in front or below an overlay. -/
def AsksQuitOnce (s : OverlayApp) : OverlayAction → Prop
  | .key _ key _ _ =>
    (feedPrefix s.app.now s.app.prefixArmedAt key).2 = some .quit → ¬s.app.overlays.QuitOpen
  | _ => True

instance (s : OverlayApp) (a : OverlayAction) : Decidable (AsksQuitOnce s a) :=
  match a with
  | .key _ _ _ _ => inferInstanceAs (Decidable (_ → ¬(_ ∨ _)))
  | .tick _ | .elapse _ | .output _ _ => isTrue trivial

/-- The mode is that of the last overlay opened and not closed, Esc closes the overlays
one after the other, and the quit question goes away. -/
structure Unwinds (s : OverlayApp) : Prop where
  base : s.contexts.base.isBase = true
  mode : s.app.mode = s.contexts.mode
  escapes : ∀ worlds, ∃ n, (s.escapes worlds n).app.mode = s.contexts.base ∧
    (s.escapes worlds n).app.overlayStack = []
  cancels : s.FrontIs .confirmQuit → ∀ w, (s.escape w).app.mode = s.contexts.popped.mode ∧
    (s.escape w).app.mode ≠ .confirmQuit

namespace OverlayApp

variable {s : OverlayApp}

theorem handleKey_tracks (h : Tracks s.contexts s.app.overlays) (w : KeyWorld) (key : KeyEvent)
    (worktreeFilter branchFilter : List Char)
    (hquit : (feedPrefix s.app.now s.app.prefixArmedAt key).2 = some .quit →
      ¬s.app.overlays.QuitOpen) :
    let s' := s.handleKey w key worktreeFilter branchFilter
    Tracks s'.contexts s'.app.overlays := by
  dsimp only [handleKey]
  generalize (if key.code = .esc then s.onEsc w else w) = w
  rw [TuiApp.overlays_handleKey]
  cases hcall : s.app.keyCall w key with
  | none => exact h
  | some call => exact h.apply (TuiApp.keyCall_allowed h hquit hcall)

theorem step_tracks (h : Tracks s.contexts s.app.overlays) {a : OverlayAction}
    (hok : AsksQuitOnce s a) : Tracks (s.step a).contexts (s.step a).app.overlays := by
  cases a with
  | key w key worktreeFilter branchFilter =>
    exact handleKey_tracks h w key worktreeFilter branchFilter hok
  | tick w =>
    rw [step, TuiApp.overlays_refreshIfDue]
    exact h
  | elapse milliseconds => exact h
  | output text output =>
    rw [step, TuiApp.overlays_of_sameLayers (TuiApp.ingestTerminalOutput_layers text output _)]
    exact h

theorem tracks (h : overlaySystem.ReachVia AsksQuitOnce s) :
    Tracks s.contexts s.app.overlays := by
  refine h.invariant (I := fun s => Tracks s.contexts s.app.overlays) ?_ ?_
  · rintro _ ⟨refreshInterval, session, rfl⟩
    exact Tracks.initial .navigate rfl .navigate
  · intro s a s' _ htracks hok hstep
    obtain rfl : s.step a = s' := Option.some.inj hstep
    exact step_tracks htracks hok

/-- What Esc has to do before no overlay is open: it leaves an input, clears a filter or
closes an overlay. -/
def pending (s : OverlayApp) : Nat :=
  s.app.commitInput.isSome.toNat + s.app.promptInput.isSome.toNat +
    s.app.buffers.lens.active.toNat + (!s.app.helpFilter.isEmpty).toNat +
    (!s.worktreeFilter.isEmpty).toNat + (!s.branchFilter.isEmpty).toNat + s.contexts.opened.length

theorem feedPrefix_esc (now : Nat) (armedAt : Option Nat) :
    feedPrefix now armedAt esc = (none, none) := by
  rw [feedPrefix]
  simp [isPrefixKey, esc]

theorem handleKey_esc (w : KeyWorld) (app : TuiApp) :
    (app.handleKey w esc).1 =
      ((app.onView fun view => { view with prefixArmedAt := none }).handleUnprefixed w esc).1 := by
  rw [TuiApp.handleKey, feedPrefix_esc]
  rfl

theorem keyCall_esc (w : KeyWorld) (app : TuiApp) :
    app.keyCall w esc = app.unprefixedCall w esc := by
  rw [TuiApp.keyCall, feedPrefix_esc]
  rfl

/-- The interface that Esc finds, its prefix disarmed. -/
def disarmed (s : OverlayApp) : TuiApp :=
  s.app.onView fun view => { view with prefixArmedAt := none }

theorem not_frontIs (h : s.app.TakenByInput) (mode : TuiMode) : ¬s.FrontIs mode := fun hfront =>
  hfront.1 h

theorem pending_escape_input (h : s.app.TakenByInput) (w : KeyWorld) :
    (s.escape w).pending < s.pending ∧ (s.escape w).contexts = s.contexts ∧
      (s.escape w).app.overlays = s.app.overlays := by
  have hcall : s.app.unprefixedCall (s.onEsc w) esc = none := by
    rw [TuiApp.unprefixedCall]
    split
    · rfl
    · split
      · rw [TuiApp.promptCall]
        split
        · rfl
        · rfl
      · rfl
  have hcontexts : (s.escape w).contexts = s.contexts := by
    change (s.app.keyCall (s.onEsc w) esc).elim _ _ = _
    rw [keyCall_esc, hcall]
    rfl
  have hoverlays : (s.escape w).app.overlays = s.app.overlays := by
    change (s.app.handleKey (s.onEsc w) esc).1.overlays = _
    rw [TuiApp.overlays_handleKey, keyCall_esc, hcall]
    rfl
  have happ : (s.escape w).app = (s.disarmed.handleUnprefixed (s.onEsc w) esc).1 :=
    handleKey_esc _ _
  have hworktree : (s.escape w).worktreeFilter = s.worktreeFilter := if_neg (not_frontIs h _)
  have hbranch : (s.escape w).branchFilter = s.branchFilter := if_neg (not_frontIs h _)
  refine ⟨?_, hcontexts, hoverlays⟩
  rw [pending, pending, hcontexts, hworktree, hbranch, happ]
  by_cases hcommit : s.app.commitInput.isSome = true
  · have hleft : (s.disarmed.handleUnprefixed (s.onEsc w) esc).1 =
        s.disarmed.onView fun view => { view with commitInput := none } := by
      obtain ⟨text, htext⟩ := Option.isSome_iff_exists.mp hcommit
      have hopen : s.disarmed.commitInput = some text := htext
      rw [TuiApp.handleUnprefixed, if_pos (by rw [hopen]; rfl)]
      simp only [TuiApp.onView, TuiView.handleCommitKey, hopen, esc, or_true, if_true]
    rw [hleft, hcommit]
    simp only [TuiApp.onView, disarmed, Option.isSome_none, Bool.toNat_false, Bool.toNat_true]
    omega
  have hcommit' : ¬s.disarmed.commitInput.isSome = true := hcommit
  by_cases hprompt : s.app.promptInput.isSome = true
  · have hleft : (s.disarmed.handleUnprefixed (s.onEsc w) esc).1 =
        s.disarmed.onView TuiView.withoutPrompt := by
      obtain ⟨prompt, hsome⟩ := Option.isSome_iff_exists.mp hprompt
      have hopen : s.disarmed.promptInput = some prompt := hsome
      rw [TuiApp.handleUnprefixed, if_neg hcommit', if_pos (by rw [hopen]; rfl),
        TuiApp.handlePromptKey, hopen]
      rfl
    rw [hleft, hprompt]
    simp only [TuiApp.onView, disarmed, TuiView.withoutPrompt, Option.isSome_none, Bool.toNat_false,
      Bool.toNat_true]
    omega
  · have hlens := (h.resolve_left hcommit).resolve_left hprompt
    have hprompt' : ¬s.disarmed.promptInput.isSome = true := hprompt
    have hlens' : s.disarmed.buffers.lens.active = true ∧ s.disarmed.screen = .terminal := hlens
    have hleft : (s.disarmed.handleUnprefixed (s.onEsc w) esc).1 =
        s.disarmed.onView (TuiView.withLens LensState.close) := by
      rw [TuiApp.handleUnprefixed, if_neg hcommit', if_neg hprompt', if_pos hlens']
      simp only [TuiApp.onView, TuiView.handleLensKey, esc, true_or, if_true]
    rw [hleft, hlens.1]
    simp only [TuiApp.onView, disarmed, TuiView.withLens, LensState.close, Bool.toNat_false,
      Bool.toNat_true]
    omega

theorem pending_lt {s' : OverlayApp} (hcommit : s'.app.commitInput = s.app.commitInput)
    (hprompt : s'.app.promptInput = s.app.promptInput)
    (hlens : s'.app.buffers.lens.active = s.app.buffers.lens.active)
    (hcleared : (!s'.app.helpFilter.isEmpty).toNat + (!s'.worktreeFilter.isEmpty).toNat +
        (!s'.branchFilter.isEmpty).toNat + s'.contexts.opened.length <
      (!s.app.helpFilter.isEmpty).toNat + (!s.worktreeFilter.isEmpty).toNat +
        (!s.branchFilter.isEmpty).toNat + s.contexts.opened.length) :
    s'.pending < s.pending := by
  rw [pending, pending, hcommit, hprompt, hlens]
  omega

theorem pending_escape_overlay (hinput : ¬s.app.TakenByInput)
    (h : Tracks s.contexts s.app.overlays) (hmode : s.app.mode.isBase = false) (w : KeyWorld) :
    (s.escape w).pending < s.pending ∧ (s.escape w).contexts.base = s.contexts.base := by
  obtain ⟨opened, hopened⟩ := h.exists_opened hmode
  have hfront (mode : TuiMode) : s.FrontIs mode ↔ s.app.mode = mode :=
    ⟨fun h => h.2, fun h => ⟨hinput, h⟩⟩
  have hcontexts : (s.escape w).contexts =
      (s.app.modeCall (s.onEsc w) esc).elim s.contexts s.contexts.apply := by
    have hcall : s.app.keyCall (s.onEsc w) esc = s.app.modeCall (s.onEsc w) esc := by
      have hinputs := hinput
      rw [TuiApp.TakenByInput, not_or, not_or] at hinputs
      rw [keyCall_esc, TuiApp.unprefixedCall, if_neg hinputs.1, if_neg hinputs.2.1, if_neg hinput]
    rw [← hcall]
    rfl
  have happ : (s.escape w).app = (s.disarmed.handleUnprefixed (s.onEsc w) esc).1 :=
    handleKey_esc _ _
  have hworktree : (s.escape w).worktreeFilter =
      if s.app.mode = .worktreeList then [] else s.worktreeFilter :=
    if_congr (hfront _) rfl rfl
  have hbranch : (s.escape w).branchFilter =
      if s.app.mode = .branchPicker then [] else s.branchFilter := if_congr (hfront _) rfl rfl
  have hworktree_le : (!(s.escape w).worktreeFilter.isEmpty).toNat ≤
      (!s.worktreeFilter.isEmpty).toNat := by
    rw [hworktree]
    split
    · exact Nat.zero_le _
    · exact le_rfl
  have hbranch_le : (!(s.escape w).branchFilter.isEmpty).toNat ≤
      (!s.branchFilter.isEmpty).toNat := by
    rw [hbranch]
    split
    · exact Nat.zero_le _
    · exact le_rfl
  have closing (hclosed : (s.escape w).contexts = s.contexts.popped)
      (hcommit : (s.escape w).app.commitInput = s.app.commitInput)
      (hprompt : (s.escape w).app.promptInput = s.app.promptInput)
      (hlens : (s.escape w).app.buffers.lens.active = s.app.buffers.lens.active)
      (hfilter : (!(s.escape w).app.helpFilter.isEmpty).toNat ≤ (!s.app.helpFilter.isEmpty).toNat) :
      (s.escape w).pending < s.pending ∧ (s.escape w).contexts.base = s.contexts.base := by
    have hlength : (s.escape w).contexts.opened.length + 1 = s.contexts.opened.length := by
      rw [hclosed, Contexts.popped, hopened]
      rfl
    exact ⟨pending_lt hcommit hprompt hlens (by omega), by rw [hclosed]; rfl⟩
  rw [TuiApp.handleUnprefixed_of_not_takenByInput (by exact hinput)] at happ
  rw [TuiApp.modeCall] at hcontexts
  have hdisarmed : s.disarmed.mode = s.app.mode := rfl
  rw [hdisarmed] at happ
  cases hcase : s.app.mode <;> rw [hcase] at hmode hworktree hbranch happ hcontexts <;>
    dsimp only at happ hcontexts
  case navigate | attach => cases hmode
  case settings =>
    have hclosed : (s.escape w).app = s.disarmed.onView TuiView.closeOverlay := happ
    exact closing hcontexts (by rw [hclosed]; rfl) (by rw [hclosed]; rfl) (by rw [hclosed]; rfl)
      (by rw [hclosed]; exact le_rfl)
  case confirmQuit =>
    have hclosed : (s.escape w).app = s.disarmed.onView TuiView.cancelQuit := happ
    exact closing hcontexts (by rw [hclosed]; rfl) (by rw [hclosed]; rfl) (by rw [hclosed]; rfl)
      (by rw [hclosed]; exact le_rfl)
  case searchPalette =>
    have hclosed : (s.escape w).app = s.disarmed.onView TuiView.closeOverlay := happ
    exact closing hcontexts (by rw [hclosed]; rfl) (by rw [hclosed]; rfl) (by rw [hclosed]; rfl)
      (by rw [hclosed]; exact le_rfl)
  case sessionManager =>
    have hclosed : (s.escape w).app = s.disarmed.onView TuiView.closeOverlay := happ
    exact closing hcontexts (by rw [hclosed]; rfl) (by rw [hclosed]; rfl) (by rw [hclosed]; rfl)
      (by rw [hclosed]; exact le_rfl)
  case help =>
    by_cases hfilter : s.app.helpFilter = []
    · have hclosed : (s.escape w).app = s.disarmed.onView TuiView.closeHelpOverlay := by
        rw [happ]
        simp only [TuiApp.onView, TuiView.handleHelpKey, esc]
        rw [if_pos (show s.disarmed.helpFilter = [] from hfilter)]
      have hpopped : (s.escape w).contexts = s.contexts.popped := by
        rw [hcontexts, esc]
        dsimp only
        rw [if_pos hfilter]
        rfl
      exact closing hpopped (by rw [hclosed]; rfl) (by rw [hclosed]; rfl) (by rw [hclosed]; rfl)
        (by rw [hclosed]; exact Nat.zero_le _)
    · have hcleared : (s.escape w).app =
          s.disarmed.onView fun view => { view with helpFilter := [] } := by
        rw [happ]
        simp only [TuiApp.onView, TuiView.handleHelpKey, esc]
        rw [if_neg (show ¬s.disarmed.helpFilter = [] from hfilter)]
      have hkept : (s.escape w).contexts = s.contexts := by
        rw [hcontexts, esc]
        dsimp only
        rw [if_neg hfilter]
        rfl
      refine ⟨pending_lt (by rw [hcleared]; rfl) (by rw [hcleared]; rfl) (by rw [hcleared]; rfl) ?_,
        by rw [hkept]⟩
      have hnone : (!(s.escape w).app.helpFilter.isEmpty).toNat = 0 := by rw [hcleared]; rfl
      have hsome : (!s.app.helpFilter.isEmpty).toNat = 1 := by simp [hfilter]
      rw [hkept]
      omega
  case worktreeList =>
    by_cases hfilter : s.worktreeFilter = []
    · have hbrowser : (s.onEsc w).browser = .closed := if_pos hfilter
      rw [TuiApp.handleWorktreeListKey, hbrowser] at happ
      rw [hbrowser] at hcontexts
      have hclosed : (s.escape w).app = s.disarmed.onView TuiView.closeOverlay := happ
      exact closing hcontexts (by rw [hclosed]; rfl) (by rw [hclosed]; rfl) (by rw [hclosed]; rfl)
        (by rw [hclosed]; exact le_rfl)
    · have hbrowser : (s.onEsc w).browser = .nothing := if_neg hfilter
      rw [TuiApp.handleWorktreeListKey, hbrowser] at happ
      rw [hbrowser] at hcontexts
      have hkept : (s.escape w).contexts = s.contexts := hcontexts
      refine ⟨pending_lt (by rw [happ]; rfl) (by rw [happ]; rfl) (by rw [happ]; rfl) ?_,
        by rw [hkept]⟩
      have hhelp : (s.escape w).app.helpFilter = s.app.helpFilter := by rw [happ]; rfl
      have hsome : (!s.worktreeFilter.isEmpty).toNat = 1 := by simp [hfilter]
      rw [if_pos rfl] at hworktree
      rw [hkept, hhelp, hworktree, hsome, List.isEmpty_nil, Bool.not_true, Bool.toNat_false]
      omega
  case branchPicker =>
    by_cases hfilter : s.branchFilter = []
    · have hpicker : (s.onEsc w).picker = .closed := if_pos hfilter
      rw [TuiApp.handleBranchPickerKey, hpicker] at happ
      rw [hpicker] at hcontexts
      have hclosed : (s.escape w).app = s.disarmed.onView TuiView.closeOverlay := happ
      exact closing hcontexts (by rw [hclosed]; rfl) (by rw [hclosed]; rfl) (by rw [hclosed]; rfl)
        (by rw [hclosed]; exact le_rfl)
    · have hpicker : (s.onEsc w).picker = .nothing := if_neg hfilter
      rw [TuiApp.handleBranchPickerKey, hpicker] at happ
      rw [hpicker] at hcontexts
      have hkept : (s.escape w).contexts = s.contexts := hcontexts
      refine ⟨pending_lt (by rw [happ]; rfl) (by rw [happ]; rfl) (by rw [happ]; rfl) ?_,
        by rw [hkept]⟩
      have hhelp : (s.escape w).app.helpFilter = s.app.helpFilter := by rw [happ]; rfl
      have hsome : (!s.branchFilter.isEmpty).toNat = 1 := by simp [hfilter]
      rw [if_pos rfl] at hbranch
      rw [hkept, hhelp, hbranch, hsome, List.isEmpty_nil, Bool.not_true, Bool.toNat_false]
      omega

theorem pending_escape (h : Tracks s.contexts s.app.overlays) (hopened : s.contexts.opened ≠ [])
    (w : KeyWorld) :
    (s.escape w).pending < s.pending ∧ (s.escape w).contexts.base = s.contexts.base := by
  by_cases hinput : s.app.TakenByInput
  · obtain ⟨hlt, hcontexts, -⟩ := pending_escape_input hinput w
    exact ⟨hlt, by rw [hcontexts]⟩
  · have hmode : s.app.mode.isBase = false := by
      by_contra hbase
      exact hopened (h.opened_eq_nil (Bool.eq_true_of_not_eq_false hbase))
    exact pending_escape_overlay hinput h hmode w

theorem escape_tracks (h : Tracks s.contexts s.app.overlays) (w : KeyWorld) :
    Tracks (s.escape w).contexts (s.escape w).app.overlays := by
  refine handleKey_tracks h w esc [] [] fun hfed => ?_
  rw [feedPrefix_esc] at hfed
  cases hfed

theorem exists_escapes (worlds : Nat → KeyWorld) (measure : Nat) :
    ∀ n, Tracks (s.escapes worlds n).contexts (s.escapes worlds n).app.overlays →
      (s.escapes worlds n).pending ≤ measure →
      ∃ m, Tracks (s.escapes worlds m).contexts (s.escapes worlds m).app.overlays ∧
        (s.escapes worlds m).contexts = ⟨(s.escapes worlds n).contexts.base, []⟩ := by
  induction measure with
  | zero =>
    intro n htracks hle
    have hlength : (s.escapes worlds n).contexts.opened.length ≤ 0 :=
      (Nat.le_add_left _ _).trans hle
    have hopened := List.length_eq_zero_iff.mp (Nat.le_zero.mp hlength)
    exact ⟨n, htracks, by rw [← hopened]⟩
  | succ measure ih =>
    intro n htracks hle
    by_cases hopened : (s.escapes worlds n).contexts.opened = []
    · exact ⟨n, htracks, by rw [← hopened]⟩
    · obtain ⟨hlt, hbase⟩ := pending_escape htracks hopened (worlds n)
      obtain ⟨m, hm, hcontexts⟩ := ih (n + 1) (escape_tracks htracks (worlds n)) (by
        rw [escapes]
        omega)
      refine ⟨m, hm, ?_⟩
      rw [hcontexts, escapes, hbase]

end OverlayApp

theorem Tracks.cancels_escape {s : OverlayApp} (h : Tracks s.contexts s.app.overlays)
    (hfront : s.FrontIs .confirmQuit) (w : KeyWorld) :
    (s.escape w).app.mode = s.contexts.popped.mode ∧ (s.escape w).app.mode ≠ .confirmQuit := by
  obtain ⟨hinput, hmode⟩ := hfront
  have hcall : s.app.keyCall (s.onEsc w) OverlayApp.esc = some .quitCancelled := by
    have hinputs := hinput
    rw [TuiApp.TakenByInput, not_or, not_or] at hinputs
    rw [OverlayApp.keyCall_esc, TuiApp.unprefixedCall, if_neg hinputs.1, if_neg hinputs.2.1,
      if_neg hinput, TuiApp.modeCall, hmode]
    rfl
  have hcontexts : (s.escape w).contexts = s.contexts.popped := by
    change (s.app.keyCall (s.onEsc w) OverlayApp.esc).elim _ _ = _
    rw [hcall]
    rfl
  have hnext : (s.escape w).app.mode = s.contexts.popped.mode := by
    have hescaped := (OverlayApp.escape_tracks h w).mode
    rwa [hcontexts] at hescaped
  refine ⟨hnext, ?_⟩
  have hquit : s.app.overlays.mode = .confirmQuit := hmode
  obtain ⟨opened, hopened⟩ := h.exists_opened (by rw [hquit]; rfl)
  have hcount := h.once
  rw [hopened, hquit, List.count_cons_self] at hcount
  rw [hnext, Contexts.popped, Contexts.mode, hopened, List.tail_cons]
  cases opened with
  | nil =>
    rintro hbase
    have hisBase := h.base
    rw [show s.contexts.base = .confirmQuit from hbase] at hisBase
    cases hisBase
  | cons overlay opened =>
    rintro heq
    rw [show overlay = .confirmQuit from heq, List.count_cons_self] at hcount
    omega

/-- In a run that does not ask to quit over the quit question, the overlays unwind. -/
theorem overlaySystem_unwinds {s : OverlayApp} (h : overlaySystem.ReachVia AsksQuitOnce s) :
    Unwinds s := by
  have htracks := OverlayApp.tracks h
  refine ⟨htracks.base, htracks.mode, fun worlds => ?_, fun hfront w => ?_⟩
  · obtain ⟨n, hn, hcontexts⟩ := OverlayApp.exists_escapes worlds s.pending 0 htracks le_rfl
    have hmode := hn.mode
    have hstack := hn.stack
    rw [hcontexts] at hmode hstack
    exact ⟨n, hmode, hstack⟩
  · exact htracks.cancels_escape hfront w

def idleWorld : KeyWorld where
  text := ⟨id, fun _ _ => []⟩
  canonicalize := some
  snapshot := none
  reads := []
  output := none
  accepted := false
  proceeds := false
  panel := .nothing
  browser := .nothing
  picker := .nothing
  palette := .nothing
  sessions := .nothing
  prompt := .nothing

def pressed (ch : Char) : List OverlayAction :=
  [.key idleWorld ⟨.char 'b', true, false⟩ [] [], .key idleWorld ⟨.char ch, false, false⟩ [] []]

/-- Every action of a schedule keeps to the condition. -/
def keepsQuitOnce (s : OverlayApp) : List OverlayAction → Bool
  | [] => true
  | a :: schedule => decide (AsksQuitOnce s a) && keepsQuitOnce (s.step a) schedule

theorem reachVia_foldl {s : OverlayApp} (h : overlaySystem.ReachVia AsksQuitOnce s)
    {schedule : List OverlayAction} (hok : keepsQuitOnce s schedule = true) :
    overlaySystem.ReachVia AsksQuitOnce (schedule.foldl OverlayApp.step s) := by
  induction schedule generalizing s with
  | nil => exact h
  | cons a schedule ih =>
    rw [keepsQuitOnce, Bool.and_eq_true, decide_eq_true_eq] at hok
    exact ih (.step h hok.1 rfl) hok.2

theorem reachable_foldl {s : OverlayApp} (h : overlaySystem.Reachable s)
    (schedule : List OverlayAction) :
    overlaySystem.Reachable (schedule.foldl OverlayApp.step s) := by
  induction schedule generalizing s with
  | nil => exact h
  | cons a schedule ih => exact ih (.step h trivial rfl)

/-- The quit question over the help. -/
theorem overlaySystem_unwinds_quit :
    Unwinds ((pressed '?' ++ pressed 'q').foldl OverlayApp.step (OverlayApp.start 1000 "main")) :=
  overlaySystem_unwinds (reachVia_foldl (.init ⟨1000, "main", rfl⟩) (by decide +kernel))

/-- It is asked twice, and cannot be cancelled. -/
theorem overlaySystem_traps : ∃ s, overlaySystem.Reachable s ∧ ¬Unwinds s := by
  refine ⟨_, reachable_foldl (.init ⟨1000, "main", rfl⟩) (pressed 'q' ++ pressed 'q'),
    fun h => ?_⟩
  exact (h.cancels (by decide +kernel) idleWorld).2 (by decide +kernel)

end HerdrWebui.Tui
