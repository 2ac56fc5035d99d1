import HerdrWebui.Tui.Keys

/-!
What a refresh does to the input layers of the interface: the mode, the modes that may still come
back to the front, and the open prompt stay.
-/

namespace HerdrWebui.Tui

def TuiView.PromptOpen (kind : PromptKind) (view : TuiView) : Prop :=
  view.promptInput.map (·.kind) = some kind

/-- All layers are as they were. -/
structure TuiView.SameLayers (view view' : TuiView) : Prop where
  mode : view'.mode = view.mode
  stack : view'.overlayStack = view.overlayStack
  quit : view'.quitPrevMode = view.quitPrevMode
  prompt : view'.promptInput = view.promptInput

namespace TuiView

theorem SameLayers.trans {u v w : TuiView} (h : u.SameLayers v) (h' : v.SameLayers w) :
    u.SameLayers w :=
  ⟨h'.mode.trans h.mode, h'.stack.trans h.stack, h'.quit.trans h.quit,
    h'.prompt.trans h.prompt⟩

end TuiView

namespace TuiApp

open TuiView

theorem withBoard_layers (board : StampBoard) (app : TuiApp) :
    app.SameLayers (app.withBoard board).toTuiView := ⟨rfl, rfl, rfl, rfl⟩

theorem applyRows_layers (w : World) (snapshot : Json) (app : TuiApp) :
    app.SameLayers (app.applyRows w snapshot).toTuiView := by
  unfold applyRows
  constructor <;> dsimp only <;> split <;> rfl

theorem applyRefresh_layers (w : World) (snapshot : Json) (app : TuiApp) :
    app.SameLayers (app.applyRefresh w snapshot).toTuiView :=
  (applyRows_layers w snapshot app).trans (withBoard_layers _ _)

end TuiApp

end HerdrWebui.Tui
