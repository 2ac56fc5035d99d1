import HerdrWebui.Builtin.Rows
import HerdrWebui.Concurrency.Counting
import HerdrWebui.Data.Text

/-!
The guard of temporary tabs that are being promoted. The promote route arms it before
it asks the backend and settles it with the answer; the teardown of a terminal socket
looks at it, twice, before it asks the backend to close the tab. Route, teardown and
backend are threads over the registry of the guard and the backend's data.
-/

namespace HerdrWebui.Server

open Concurrency Table Builtin

inductive PromotedTemporaryTabState where
  /-- So many promote requests of the tab are unanswered: a `u32`. -/
  | promoting (count : Nat)
  | promoted
  deriving DecidableEq

abbrev PromotedTemporaryTabs := Table String PromotedTemporaryTabState

def u32Max : Nat := 2 ^ 32 - 1

def PromotedTemporaryTabState.armed :
    Option PromotedTemporaryTabState → PromotedTemporaryTabState
  | some (.promoting count) => .promoting (min (count + 1) u32Max)
  | some .promoted => .promoted
  | none => .promoting 1

def beginTemporaryTabPromote (registry : PromotedTemporaryTabs) (tabId : String) :
    PromotedTemporaryTabs :=
  match trimNonempty tabId with
  | none => registry
  | some tabId => registry.insert tabId (.armed (registry.lookup tabId))

/-- One promote of the tab is finished; `promoted` tells how. -/
def finishTemporaryTabPromote (registry : PromotedTemporaryTabs) (tabId : String)
    (promoted : Bool) : PromotedTemporaryTabs :=
  match trimNonempty tabId with
  | none => registry
  | some tabId =>
    if promoted then registry.insert tabId .promoted
    else
      match registry.lookup tabId with
      | some (.promoting count) =>
        if count - 1 = 0 then registry.erase tabId
        else registry.insert tabId (.promoting (count - 1))
      | some .promoted | none => registry

def shouldAutoCloseTemporaryTab (releaseArmed : Bool) (tabId : Option String)
    (registry : PromotedTemporaryTabs) : Bool :=
  if releaseArmed then false
  else
    match tabId.bind trimNonempty with
    | none => false
    | some tabId => (registry.lookup tabId).isNone

/-- Where a promote route is: the stages after `waiting` are final. A route is dropped
when its client goes away, or when the backend's call panics. -/
inductive RouteStage where
  | waiting
  | succeeded
  | failed
  | dropped
  deriving DecidableEq

inductive Party where
  | idle
  /-- Another request at the backend. -/
  | client (phase : Phase)
  /-- A promote route with its call of the backend. -/
  | route (tabId : String) (stage : RouteStage) (phase : Phase)
  /-- A teardown between its two looks at the guard. -/
  | grace (releaseArmed : Bool) (closeTabId : Option String)
  /-- A teardown with its call of the backend. -/
  | closing (phase : Phase)
  | over

/-- What became of temporary tabs. -/
inductive TabFate where
  | promoted (tabId : String)
  | closed (tabId : String)
  deriving DecidableEq

structure PromoteServer where
  registry : PromotedTemporaryTabs
  data : BuiltinData
  /-- The tabs whose close a teardown has sent and the backend has not handled. -/
  underWay : List String
  /-- The tabs that promote routes had promoted and teardowns had closed, in order. -/
  fates : List TabFate

def PromoteServer.start : PromoteServer := ⟨∅, .new, [], []⟩

/-- A request about a tab reaches the backend: the id is decoded first. -/
def tabRequest (tabId : String) (request : String → Request) : Phase :=
  match trimNonempty tabId with
  | none => .finished (.error "tab_id is required")
  | some tabId => .received (request tabId)

/-- The close that the backend has not handled yet. -/
def closeUnhandled : Phase → Option String
  | .received (.tabClose tabId) => some tabId
  | _ => none

/-- The tab that a critical section closed for a `tab.close`. -/
def closes : Phase → Phase → Option String
  | .received (.tabClose tabId), .finished (.ok _) => some tabId
  | _, _ => none

inductive PromoteAction where
  | submit (request : Request)
  | promote (tabId : String)
  | proceed (env : Environment)
  | answer
  | callFails
  | drop
  | teardown (releaseArmed : Bool) (temporaryTabId : Option String)
  | wake

def promoteStep (shell : String) : PromoteAction → PromoteServer → Party →
    Option (PromoteServer × Party)
  | .submit request, s, .idle => some (s, .client (.received request))
  | .promote tabId, s, .idle =>
    some ({ s with registry := beginTemporaryTabPromote s.registry tabId },
      .route tabId .waiting (tabRequest tabId .tabPromote))
  | .proceed env, s, .client phase =>
    (proceed shell env s.data phase).map fun (data, phase') =>
      ({ s with data := data }, .client phase')
  | .proceed env, s, .route tabId stage phase =>
    (proceed shell env s.data phase).map fun (data, phase') =>
      ({ s with
          data := data
          fates := s.fates ++
            (moves phase phase').toList.map fun (tabId, _) => .promoted tabId },
        .route tabId stage phase')
  | .proceed env, s, .closing phase =>
    (proceed shell env s.data phase).map fun (data, phase') =>
      ({ s with
          data := data
          underWay := (closeUnhandled phase).toList.foldl List.erase s.underWay
          fates := s.fates ++ (closes phase phase').toList.map .closed },
        .closing phase')
  | .answer, s, .route tabId .waiting (.finished result) =>
    some ({ s with
        registry := finishTemporaryTabPromote s.registry tabId result.isOk },
      .route tabId (if result.isOk then .succeeded else .failed) (.finished result))
  -- The call is given up for lost; the backend may go on with it.
  | .callFails, s, .route tabId .waiting phase =>
    some ({ s with registry := finishTemporaryTabPromote s.registry tabId false },
      .route tabId .failed phase)
  | .drop, s, .route tabId .waiting phase => some (s, .route tabId .dropped phase)
  | .teardown releaseArmed temporaryTabId, s, .idle =>
    let closeTabId := temporaryTabId.filter (· ≠ "")
    if shouldAutoCloseTemporaryTab releaseArmed closeTabId s.registry then
      some (s, .grace releaseArmed closeTabId)
    else some (s, .over)
  | .wake, s, .grace releaseArmed closeTabId =>
    if shouldAutoCloseTemporaryTab releaseArmed closeTabId s.registry then
      match closeTabId with
      | none => some (s, .over)
      | some tabId =>
        let phase := tabRequest tabId .tabClose
        some ({ s with underWay := s.underWay ++ (closeUnhandled phase).toList },
          .closing phase)
    else some (s, .over)
  | _, _, _ => none

/-- Promote routes, teardowns and other requests over one backend. -/
def promoteServer (shell : String) : Program PromoteServer Party PromoteAction where
  init s := s = .start
  idle := .idle
  step := promoteStep shell

/-- What one step of a party can be. -/
inductive PromoteMove (shell : String) :
    PromoteAction → PromoteServer → Party → PromoteServer → Party → Prop
  | submit {request : Request} {s : PromoteServer} :
      PromoteMove shell (.submit request) s .idle s (.client (.received request))
  | promote {tabId : String} {s : PromoteServer} :
      PromoteMove shell (.promote tabId) s .idle
        { s with registry := beginTemporaryTabPromote s.registry tabId }
        (.route tabId .waiting (tabRequest tabId .tabPromote))
  | clientProceeds {env : Environment} {s : PromoteServer} {phase phase' : Phase}
      {data : BuiltinData} :
      proceed shell env s.data phase = some (data, phase') →
      PromoteMove shell (.proceed env) s (.client phase) { s with data := data }
        (.client phase')
  | routeProceeds {env : Environment} {s : PromoteServer} {tabId : String}
      {stage : RouteStage} {phase phase' : Phase} {data : BuiltinData} :
      proceed shell env s.data phase = some (data, phase') →
      PromoteMove shell (.proceed env) s (.route tabId stage phase)
        { s with
          data := data
          fates := s.fates ++ (moves phase phase').toList.map fun (t, _) => .promoted t }
        (.route tabId stage phase')
  | closeProceeds {env : Environment} {s : PromoteServer} {phase phase' : Phase}
      {data : BuiltinData} :
      proceed shell env s.data phase = some (data, phase') →
      PromoteMove shell (.proceed env) s (.closing phase)
        { s with
          data := data
          underWay := (closeUnhandled phase).toList.foldl List.erase s.underWay
          fates := s.fates ++ (closes phase phase').toList.map .closed }
        (.closing phase')
  | answer {s : PromoteServer} {tabId : String} {result : Except String Reply} :
      PromoteMove shell .answer s (.route tabId .waiting (.finished result))
        { s with registry := finishTemporaryTabPromote s.registry tabId result.isOk }
        (.route tabId (if result.isOk then .succeeded else .failed) (.finished result))
  | callFails {s : PromoteServer} {tabId : String} {phase : Phase} :
      PromoteMove shell .callFails s (.route tabId .waiting phase)
        { s with registry := finishTemporaryTabPromote s.registry tabId false }
        (.route tabId .failed phase)
  | drop {s : PromoteServer} {tabId : String} {phase : Phase} :
      PromoteMove shell .drop s (.route tabId .waiting phase) s
        (.route tabId .dropped phase)
  | keepsOpen {releaseArmed : Bool} {temporaryTabId : Option String} {s : PromoteServer} :
      PromoteMove shell (.teardown releaseArmed temporaryTabId) s .idle s .over
  | waits {releaseArmed : Bool} {temporaryTabId closeTabId : Option String}
      {s : PromoteServer} :
      PromoteMove shell (.teardown releaseArmed temporaryTabId) s .idle s
        (.grace releaseArmed closeTabId)
  | standsDown {releaseArmed : Bool} {closeTabId : Option String} {s : PromoteServer} :
      PromoteMove shell .wake s (.grace releaseArmed closeTabId) s .over
  | sends {releaseArmed : Bool} {s : PromoteServer} {tabId t : String} :
      trimNonempty tabId = some t → s.registry.lookup t = none →
      PromoteMove shell .wake s (.grace releaseArmed (some tabId))
        { s with underWay := s.underWay ++ [t] } (.closing (.received (.tabClose t)))

theorem shouldAutoClose_unmarked {releaseArmed : Bool} {tabId : String}
    {registry : PromotedTemporaryTabs}
    (h : shouldAutoCloseTemporaryTab releaseArmed (some tabId) registry = true) :
    ∃ t, trimNonempty tabId = some t ∧ registry.lookup t = none := by
  simp only [shouldAutoCloseTemporaryTab, Option.bind_some] at h
  split at h
  · cases h
  · split at h
    · cases h
    · next t ht => exact ⟨t, ht, Option.isNone_iff_eq_none.mp h⟩

theorem promoteStep_cases {shell : String} {a : PromoteAction} {s s' : PromoteServer}
    {l l' : Party} (h : promoteStep shell a s l = some (s', l')) :
    PromoteMove shell a s l s' l' := by
  unfold promoteStep at h
  split at h
  · obtain ⟨rfl, rfl⟩ := Prod.mk.inj (Option.some.inj h)
    exact .submit
  · obtain ⟨rfl, rfl⟩ := Prod.mk.inj (Option.some.inj h)
    exact .promote
  · obtain ⟨⟨data, phase'⟩, hproceed, hpair⟩ := Option.map_eq_some_iff.mp h
    obtain ⟨rfl, rfl⟩ := Prod.mk.inj hpair
    exact .clientProceeds hproceed
  · obtain ⟨⟨data, phase'⟩, hproceed, hpair⟩ := Option.map_eq_some_iff.mp h
    obtain ⟨rfl, rfl⟩ := Prod.mk.inj hpair
    exact .routeProceeds hproceed
  · obtain ⟨⟨data, phase'⟩, hproceed, hpair⟩ := Option.map_eq_some_iff.mp h
    obtain ⟨rfl, rfl⟩ := Prod.mk.inj hpair
    exact .closeProceeds hproceed
  · obtain ⟨rfl, rfl⟩ := Prod.mk.inj (Option.some.inj h)
    exact .answer
  · obtain ⟨rfl, rfl⟩ := Prod.mk.inj (Option.some.inj h)
    exact .callFails
  · obtain ⟨rfl, rfl⟩ := Prod.mk.inj (Option.some.inj h)
    exact .drop
  · dsimp only at h
    split at h
    · obtain ⟨rfl, rfl⟩ := Prod.mk.inj (Option.some.inj h)
      exact .waits
    · obtain ⟨rfl, rfl⟩ := Prod.mk.inj (Option.some.inj h)
      exact .keepsOpen
  · split at h
    · next hclose =>
        split at h
        · obtain ⟨rfl, rfl⟩ := Prod.mk.inj (Option.some.inj h)
          exact .standsDown
        · obtain ⟨t, ht, hunmarked⟩ := shouldAutoClose_unmarked hclose
          obtain ⟨rfl, rfl⟩ := Prod.mk.inj (Option.some.inj h)
          simp only [tabRequest, ht]
          exact .sends ht hunmarked
    · obtain ⟨rfl, rfl⟩ := Prod.mk.inj (Option.some.inj h)
      exact .standsDown
  · cases h

end HerdrWebui.Server
