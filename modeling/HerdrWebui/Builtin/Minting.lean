import HerdrWebui.Builtin.Requests

/-!
Which ids a critical section may bring into the registry. A creating request
mints its ids in one lock hold and inserts them in a later one, so between the
two they are reserved: out of the counter's reach and in no map. `Accounts`
bounds what one critical section may do to the ids in use and to those its
request reserves; that reserved ids stay unused and distinct follows from it
without looking at the operations again.
-/

namespace HerdrWebui.Builtin

/-- The kinds of minted ids. -/
inductive IdKind where
  | workspace
  | tab
  | pane
  | terminal

/-- The prefix an id of the kind is minted with. -/
def IdKind.text : IdKind → String
  | .workspace => "ws"
  | .tab => "tab"
  | .pane => "pane"
  | .terminal => "term"

/-- `id` is a key of the map of its kind. -/
def BuiltinData.Uses (d : BuiltinData) : IdKind → String → Prop
  | .workspace, id => id ∈ d.workspaces
  | .tab, id => id ∈ d.tabs
  | .pane, id => id ∈ d.panes
  | .terminal, id => id ∈ d.terminals

/-- `id` was minted from a counter value in the given interval. -/
def MintedIn (lo hi : Nat) (kind : IdKind) (id : String) : Prop :=
  ∃ n, lo ≤ n ∧ n < hi ∧ id = idText kind.text n

def AllMinted (d : BuiltinData) : Prop :=
  ∀ kind id, d.Uses kind id → MintedIn 0 d.nextId kind id

def FreshIds.id (ids : FreshIds) : IdKind → String
  | .workspace => ids.workspaceId
  | .tab => ids.tabId
  | .pane => ids.paneId
  | .terminal => ids.terminalId

/-- The ids a request has minted and not yet inserted. A new tab of an existing
workspace reserves no workspace id. -/
def Phase.reserved : Phase → IdKind → Option String
  | .createWorkspaceInsert ids _ _ _ _ _, kind => some (ids.id kind)
  | .startAgentInsert ids _ _ _, kind => some (ids.id kind)
  | .createTabInsert _ _ _ _, .workspace => none
  | .createTabInsert ids _ _ _, kind => some (ids.id kind)
  | _, _ => none

/-- The ids a request reserves have been minted and are in no map. -/
def ReservedUnused (d : BuiltinData) (phase : Phase) : Prop :=
  ∀ kind id, phase.reserved kind = some id →
    MintedIn 0 d.nextId kind id ∧ ¬ d.Uses kind id

def ReservedApart (phase other : Phase) : Prop :=
  ∀ kind id, phase.reserved kind = some id → other.reserved kind ≠ some id

theorem MintedIn.mono {lo hi lo' hi' : Nat} {kind : IdKind} {id : String}
    (h : MintedIn lo hi kind id) (hlo : lo' ≤ lo) (hhi : hi ≤ hi') :
    MintedIn lo' hi' kind id := by
  obtain ⟨n, hn, hn', rfl⟩ := h
  exact ⟨n, by omega, by omega, rfl⟩

theorem MintedIn.disjoint {lo mid hi : Nat} {kind : IdKind} {id : String}
    (h : MintedIn mid hi kind id) : ¬ MintedIn lo mid kind id := by
  obtain ⟨m, hm, _, rfl⟩ := h
  rintro ⟨n, _, hn, heq⟩
  have := idText_injective kind.text heq
  omega

/-- What one critical section, run by a request that goes from `phase` to
`phase'`, does to the ids: it only uses ids that were in use, that the request
had reserved or that it minted itself, and it reserves only what it minted and
did not insert. -/
structure Accounts (d : BuiltinData) (phase : Phase) (d' : BuiltinData)
    (phase' : Phase) : Prop where
  counter : d.nextId ≤ d'.nextId
  uses : ∀ kind id, d'.Uses kind id → d.Uses kind id ∨
    phase.reserved kind = some id ∨ MintedIn d.nextId d'.nextId kind id
  reserves : ∀ kind id, phase'.reserved kind = some id →
    MintedIn d.nextId d'.nextId kind id ∧ (d'.Uses kind id → d.Uses kind id)

namespace Accounts

variable {d d' : BuiltinData} {phase phase' other : Phase}

theorem allMinted (h : Accounts d phase d' phase') (hd : AllMinted d)
    (hres : ReservedUnused d phase) : AllMinted d' := by
  intro kind id huse
  rcases h.uses kind id huse with hold | hreserved | hnew
  · exact (hd kind id hold).mono le_rfl h.counter
  · exact (hres kind id hreserved).1.mono le_rfl h.counter
  · exact hnew.mono (Nat.zero_le _) le_rfl

theorem reservedUnused (h : Accounts d phase d' phase') (hd : AllMinted d) :
    ReservedUnused d' phase' := by
  intro kind id hres
  obtain ⟨hminted, hnew⟩ := h.reserves kind id hres
  exact ⟨hminted.mono (Nat.zero_le _) le_rfl,
    fun huse => hminted.disjoint (hd kind id (hnew huse))⟩

theorem other_reservedUnused (h : Accounts d phase d' phase')
    (hother : ReservedUnused d other) (hapart : ReservedApart phase other) :
    ReservedUnused d' other := by
  intro kind id hres
  obtain ⟨hminted, hunused⟩ := hother kind id hres
  refine ⟨hminted.mono le_rfl h.counter, fun huse => ?_⟩
  rcases h.uses kind id huse with hold | hreserved | hnew
  · exact hunused hold
  · exact hapart kind id hreserved hres
  · exact hnew.disjoint hminted

theorem other_apart (h : Accounts d phase d' phase')
    (hother : ReservedUnused d other) : ReservedApart phase' other := by
  intro kind id hres hres'
  exact (h.reserves kind id hres).1.disjoint (hother kind id hres').1

end Accounts

/-- The counter stands and every id in use was in use before. -/
structure Shrinks (d d' : BuiltinData) : Prop where
  counter : d'.nextId = d.nextId
  uses : ∀ kind id, d'.Uses kind id → d.Uses kind id

namespace Shrinks

variable {d d' d'' : BuiltinData}

theorem refl (d : BuiltinData) : Shrinks d d := ⟨rfl, fun _ _ h => h⟩

theorem trans (h : Shrinks d d') (h' : Shrinks d' d'') : Shrinks d d'' :=
  ⟨h'.counter.trans h.counter, fun kind id huse => h.uses kind id (h'.uses kind id huse)⟩

theorem allMinted (h : Shrinks d d') (hd : AllMinted d) : AllMinted d' :=
  fun kind id huse => h.counter ▸ hd kind id (h.uses kind id huse)

theorem of_mem (hn : d'.nextId = d.nextId)
    (hw : ∀ id, id ∈ d'.workspaces → id ∈ d.workspaces)
    (ht : ∀ id, id ∈ d'.tabs → id ∈ d.tabs)
    (hp : ∀ id, id ∈ d'.panes → id ∈ d.panes)
    (hx : ∀ id, id ∈ d'.terminals → id ∈ d.terminals) : Shrinks d d' where
  counter := hn
  uses kind id huse := by
    cases kind with
    | workspace => exact hw id huse
    | tab => exact ht id huse
    | pane => exact hp id huse
    | terminal => exact hx id huse

theorem foldl {β : Type*} {f : BuiltinData → β → BuiltinData}
    (hf : ∀ d x, Shrinks d (f d x)) (xs : List β) (d : BuiltinData) :
    Shrinks d (xs.foldl f d) := by
  induction xs generalizing d with
  | nil => exact refl d
  | cons x xs ih => exact (hf d x).trans (ih _)

theorem setFocus (d : BuiltinData) (w t p : Option String) :
    Shrinks d (setFocus d w t p) :=
  of_mem rfl (fun _ => id) (fun _ => id) (fun _ => id) (fun _ => id)

theorem normalizeFocus (order : IterationOrder) (d : BuiltinData) :
    Shrinks d (normalizeFocus order d) :=
  of_mem (by simp) (by simp) (by simp) (by simp) (by simp)

theorem modifyWorkspace (d : BuiltinData) (w : String)
    (f : WorkspaceRecord → WorkspaceRecord) :
    Shrinks d { d with workspaces := Table.modify d.workspaces w f } :=
  of_mem rfl (by simp) (fun _ => id) (fun _ => id) (fun _ => id)

theorem modifyTab (d : BuiltinData) (t : String) (f : TabRecord → TabRecord) :
    Shrinks d { d with tabs := Table.modify d.tabs t f } :=
  of_mem rfl (fun _ => id) (by simp) (fun _ => id) (fun _ => id)

theorem closePaneLocked (d : BuiltinData) (p : String) :
    Shrinks d (closePaneLocked d p) := by
  unfold Builtin.closePaneLocked
  split
  · exact refl d
  · exact of_mem rfl (fun _ => id) (by simp) (by simp) (by simp)

theorem closeTabLocked (d : BuiltinData) (t : String) :
    Shrinks d (closeTabLocked d t) := by
  unfold Builtin.closeTabLocked
  split
  · exact refl d
  · next tab _ =>
      have herased : Shrinks d { d with tabs := d.tabs.erase t } :=
        of_mem rfl (fun _ => id) (by simp) (fun _ => id) (fun _ => id)
      have hclosed := herased.trans (foldl closePaneLocked tab.paneIds _)
      exact hclosed.trans (modifyWorkspace _ _ _)

theorem dropWorkspace {w : String} (h : dropWorkspace d w = some d') :
    Shrinks d d' := by
  obtain ⟨workspace, _, rfl⟩ := Option.map_eq_some_iff.mp h
  have herased : Shrinks d { d with workspaces := d.workspaces.erase w } :=
    of_mem rfl (by simp) (fun _ => id) (fun _ => id) (fun _ => id)
  exact herased.trans (foldl closeTabLocked workspace.tabIds _)

theorem moveTab (d : BuiltinData) (t : String) (tab : TabRecord) (w : String)
    (live : Path) : Shrinks d (moveTab d t tab w live) :=
  of_mem rfl (by simp [Builtin.moveTab]) (by simp [Builtin.moveTab])
    (by simp [Builtin.moveTab]) (fun _ => id)

theorem dropEmptied (d : BuiltinData) (w : String) :
    Shrinks d (dropEmptied d w).1 := by
  unfold Builtin.dropEmptied
  split
  · exact refl d
  · split
    · exact of_mem rfl (by simp) (fun _ => id) (fun _ => id) (fun _ => id)
    · exact refl d

end Shrinks

end HerdrWebui.Builtin
