import HerdrWebui.Server.PromoteGuard

/-!
Promoted tabs and teardowns, whatever the order of the teardown's looks, the arming of
the guard and the backend's handling of the two requests. The marker of a tab counts
the routes that hold it until one of them hears of a success; a close that is under
way when the backend promotes the tab is beyond the reach of the guard.
-/

namespace HerdrWebui.Server

open Concurrency Table Builtin

/-- How many unanswered requests a marker counts. -/
def inFlight : Option PromotedTemporaryTabState → Nat
  | some (.promoting count) => count
  | some .promoted | none => 0

def PromotedTemporaryTabState.released :
    Option PromotedTemporaryTabState → Option PromotedTemporaryTabState
  | some (.promoting count) =>
    if count - 1 = 0 then none else some (.promoting (count - 1))
  | some .promoted => some .promoted
  | none => none

open PromotedTemporaryTabState

theorem eq_promoted_of_armed {m : Option PromotedTemporaryTabState}
    (h : armed m = .promoted) : m = some .promoted := by
  cases m with
  | none => cases h
  | some marker =>
    cases marker with
    | promoting count => cases h
    | promoted => rfl

theorem eq_promoted_of_released {m : Option PromotedTemporaryTabState}
    (h : released m = some .promoted) : m = some .promoted := by
  cases m with
  | none => cases h
  | some marker =>
    cases marker with
    | promoting count =>
      simp only [released] at h
      split at h <;> cases h
    | promoted => rfl

theorem lookup_begin (registry : PromotedTemporaryTabs) (tabId t : String) :
    (beginTemporaryTabPromote registry tabId).lookup t =
      if trimNonempty tabId = some t then some (armed (registry.lookup t))
      else registry.lookup t := by
  unfold beginTemporaryTabPromote
  cases hkey : trimNonempty tabId with
  | none => simp
  | some key =>
    by_cases heq : t = key
    · subst heq
      simp
    · simp [heq, Ne.symm heq]

theorem lookup_release (registry : PromotedTemporaryTabs) (key t : String) :
    Finmap.lookup t (match registry.lookup key with
      | some (.promoting count) =>
        if count - 1 = 0 then registry.erase key
        else registry.insert key (.promoting (count - 1))
      | some .promoted | none => registry) =
      if key = t then released (registry.lookup t) else registry.lookup t := by
  by_cases heq : key = t
  · subst heq
    rw [if_pos rfl]
    split
    · next count hmarker =>
        rw [hmarker]
        unfold released
        split <;> simp_all
    · next hmarker => simp [hmarker, released]
    · next hmarker => simp [hmarker, released]
  · rw [if_neg heq]
    split
    · split <;> simp [Ne.symm heq]
    · rfl
    · rfl

theorem lookup_finish (registry : PromotedTemporaryTabs) (tabId t : String)
    (promoted : Bool) :
    (finishTemporaryTabPromote registry tabId promoted).lookup t =
      if trimNonempty tabId = some t then
        if promoted then some .promoted else released (registry.lookup t)
      else registry.lookup t := by
  unfold finishTemporaryTabPromote
  cases hkey : trimNonempty tabId with
  | none => simp
  | some key =>
    simp only [Option.some.injEq]
    cases promoted with
    | false => exact lookup_release registry key t
    | true =>
      rw [if_pos rfl, if_pos rfl, lookup_insert_eq]
      simp only [eq_comm]

def Party.promotes (t : String) : Party → Bool
  | .route tabId _ _ => trimNonempty tabId == some t
  | _ => false

def Party.hasFailed : Party → Bool
  | .route _ .failed _ => true
  | _ => false

def Party.hasSucceeded (t : String) : Party → Bool
  | .route tabId .succeeded _ => trimNonempty tabId == some t
  | _ => false

/-- The route has armed the guard of the tab and not settled it. -/
def Party.holds (t : String) : Party → Bool
  | .route tabId .waiting _ | .route tabId .dropped _ => trimNonempty tabId == some t
  | _ => false

theorem holds_waiting (tabId t : String) (phase : Phase) :
    (Party.route tabId .waiting phase).holds t = (trimNonempty tabId == some t) :=
  rfl

/-- The promote succeeded, and its route holds the guard. -/
def Party.committed (t : String) : Party → Bool
  | .route tabId .waiting (.finished (.ok _))
  | .route tabId .dropped (.finished (.ok _)) => trimNonempty tabId == some t
  | _ => false

/-- The teardown has sent a close of the tab that the backend has not handled. -/
def Party.unhandled (t : String) : Party → Bool
  | .closing phase => closeUnhandled phase == some t
  | _ => false

/-- The counter of the marker has room for one more. -/
def unsaturated : Option PromotedTemporaryTabState → Bool
  | some (.promoting count) => count < u32Max
  | some .promoted | none => true

/-- The step takes no promoted tab out of the guard's reach: the counter does not
saturate, the backend promotes a tab only while no close of it is under way and its
route holds the guard, and a route gives no promote up that succeeded (a marker that
says `Promoted` makes up for the route). -/
def guardKept (s : PromoteServer) (l : Party) (a : PromoteAction) : Bool :=
  match a, l with
  | .promote tabId, .idle =>
    (trimNonempty tabId).all fun t => unsaturated (s.registry.lookup t)
  | .proceed env, .route _ _ (.promoteTabCommit t p live) =>
    !(promoteTabCommit env s.data t p live).isOk ||
      (t ∉ s.underWay && (l.holds t || s.registry.lookup t = some .promoted))
  | .callFails, .route tabId _ (.finished (.ok _)) =>
    (trimNonempty tabId).all fun t => s.registry.lookup t = some .promoted
  | _, _ => true

/-- What a step does to the marker of a tab, with its thread holding it before and
after. -/
inductive MarkerMove : Option PromotedTemporaryTabState → Bool →
    Option PromotedTemporaryTabState → Bool → Prop
  | keep {m : Option PromotedTemporaryTabState} {held : Bool} : MarkerMove m held m held
  | arm {m : Option PromotedTemporaryTabState} :
      unsaturated m = true → MarkerMove m false (some (armed m)) true
  | release {m : Option PromotedTemporaryTabState} :
      MarkerMove m true (released m) false
  | succeed {m : Option PromotedTemporaryTabState} :
      MarkerMove m true (some .promoted) false

section Steps

variable {shell : String} {a : PromoteAction} {s s' : PromoteServer} {l l' : Party}

theorem PromoteMove.marker (h : PromoteMove shell a s l s' l')
    (hok : guardKept s l a = true) (t : String) :
    MarkerMove (s.registry.lookup t) (l.holds t) (s'.registry.lookup t) (l'.holds t) := by
  cases h with
  | submit | clientProceeds | closeProceeds | drop | keepsOpen | waits | standsDown | sends =>
    exact .keep
  | @promote tabId =>
    dsimp only
    rw [lookup_begin, holds_waiting]
    by_cases hkey : trimNonempty tabId = some t
    · have hroom : unsaturated (s.registry.lookup t) = true := by
        simpa [guardKept, hkey] using hok
      rw [if_pos hkey, beq_iff_eq.mpr hkey]
      exact .arm hroom
    · rw [if_neg hkey, beq_eq_false_iff_ne.mpr hkey]
      exact .keep
  | @routeProceeds _ _ tabId stage =>
    cases stage <;> exact .keep
  | @answer _ tabId result =>
    dsimp only
    rw [lookup_finish, holds_waiting]
    by_cases hkey : trimNonempty tabId = some t
    · rw [if_pos hkey, beq_iff_eq.mpr hkey]
      cases result with
      | error message => exact .release
      | ok reply => exact .succeed
    · rw [if_neg hkey, beq_eq_false_iff_ne.mpr hkey]
      cases result <;> exact .keep
  | @callFails _ tabId phase =>
    dsimp only
    rw [lookup_finish, holds_waiting]
    by_cases hkey : trimNonempty tabId = some t
    · rw [if_pos hkey, beq_iff_eq.mpr hkey]
      exact .release
    · rw [if_neg hkey, beq_eq_false_iff_ne.mpr hkey]
      exact .keep

end Steps

/-- A marker counts the routes that hold it, until one of them heard of a success. -/
structure Counts (threads : Nat → Party) (t : String)
    (m : Option PromotedTemporaryTabState) : Prop where
  nonzero : m ≠ some (.promoting 0)
  held : m ≠ some .promoted → ThreadCount threads (Party.holds t) (inFlight m)

theorem MarkerMove.promoted {m m' : Option PromotedTemporaryTabState} {held held' : Bool}
    (h : MarkerMove m held m' held') (hm : m = some .promoted) : m' = some .promoted := by
  cases h with
  | keep => exact hm
  | arm =>
    rw [hm]
    rfl
  | release =>
    rw [hm]
    rfl
  | succeed => rfl

section Counting

variable {threads : Nat → Party} {t : String} {i : Nat} {l' : Party}
  {m m' : Option PromotedTemporaryTabState}

theorem Counts.arm (h : Counts threads t m) (hroom : unsaturated m = true)
    (hold : (threads i).holds t = false) (hnew : l'.holds t = true) :
    Counts (Function.update threads i l') t (some (armed m)) := by
  cases m with
  | none =>
    refine ⟨by simp [armed], fun _ => (h.held (by simp)).update i ?_⟩
    rw [hold, hnew]
    rfl
  | some marker =>
    cases marker with
    | promoted => exact ⟨by simp [armed], fun hm => absurd rfl hm⟩
    | promoting count =>
      have hlt : count < u32Max := by simpa [unsaturated] using hroom
      refine ⟨by simp [armed, u32Max], fun _ => (h.held (by simp)).update i ?_⟩
      rw [hold, hnew]
      simp only [armed, inFlight, Bool.toNat_true, Bool.toNat_false]
      omega

theorem Counts.release (h : Counts threads t m) (hold : (threads i).holds t = true)
    (hnew : l'.holds t = false) :
    Counts (Function.update threads i l') t (released m) := by
  cases m with
  | none =>
    have hpos := (h.held (by simp)).pos hold
    exact absurd hpos (lt_irrefl 0)
  | some marker =>
    cases marker with
    | promoted => exact ⟨by simp [released], fun hm => absurd rfl hm⟩
    | promoting count =>
      have hcount := h.held (by simp)
      have hpos : 0 < count := hcount.pos hold
      have hone : count - 1 + ((threads i).holds t).toNat =
          count + (l'.holds t).toNat := by
        rw [hold, hnew, Bool.toNat_true, Bool.toNat_false]
        omega
      by_cases hlast : count - 1 = 0
      · simp only [released, if_pos hlast]
        refine ⟨by simp, fun _ => hcount.update i ?_⟩
        rwa [hlast] at hone
      · simp only [released, if_neg hlast]
        exact ⟨by simpa using hlast, fun _ => hcount.update i hone⟩

theorem Counts.move (h : Counts threads t m)
    (hmove : MarkerMove m ((threads i).holds t) m' (l'.holds t)) :
    Counts (Function.update threads i l') t m' := by
  generalize hold : (threads i).holds t = held at hmove
  generalize hnew : l'.holds t = held' at hmove
  cases hmove with
  | keep =>
    refine ⟨h.nonzero, fun hm => (h.held hm).update i ?_⟩
    rw [hold, hnew]
  | arm hroom => exact h.arm hroom hold hnew
  | release => exact h.release hold hnew
  | succeed => exact ⟨by simp, fun hm => absurd rfl hm⟩

end Counting

/-- The call of a promote route is about its own tab. -/
inductive Follows (tabId : String) : Phase → Prop
  | received {t : String} :
      trimNonempty tabId = some t → Follows tabId (.received (.tabPromote t))
  | probe {t p terminal : String} {cwd : Path} :
      trimNonempty tabId = some t → Follows tabId (.promoteTabProbe t p terminal cwd)
  | commit {t p : String} {live : Path} :
      trimNonempty tabId = some t → Follows tabId (.promoteTabCommit t p live)
  | finished {result : Except String Reply} : Follows tabId (.finished result)

/-- The calls of routes and teardowns are where they can be. -/
def Party.InTurn : Party → Prop
  | .route tabId _ phase => Follows tabId phase
  | .closing phase =>
    (∃ t, phase = .received (.tabClose t)) ∨ ∃ result, phase = .finished result
  | _ => True

section Calls

variable {shell : String} {env : Environment} {d d' : BuiltinData}
  {phase phase' : Phase}

theorem follows_tabRequest (tabId : String) : Follows tabId (tabRequest tabId .tabPromote) := by
  unfold tabRequest
  split
  · exact .finished
  · next t ht => exact .received ht

theorem proceed_tabClose {t : String}
    (h : proceed shell env d (.received (.tabClose t)) = some (d', phase')) :
    ∃ result, phase' = .finished result := by
  have hanswer : answer d (closeTab env.order d t) = (d', phase') := Option.some.inj h
  cases hclose : closeTab env.order d t with
  | error message =>
    rw [hclose] at hanswer
    exact ⟨_, (Prod.mk.inj hanswer).2.symm⟩
  | ok data =>
    rw [hclose] at hanswer
    exact ⟨_, (Prod.mk.inj hanswer).2.symm⟩

theorem Follows.proceed {tabId : String} (hfollows : Follows tabId phase)
    (h : proceed shell env d phase = some (d', phase')) : Follows tabId phase' := by
  cases proceed_cases h with
  | fails | replies | insertsTab | insertsAgent | commits | removes => exact .finished
  | mintsWorkspace | insertsTerminal | insertsEmpty | mintsTab | scans => cases hfollows
  | probes =>
    cases hfollows with
    | probe ht => exact .commit ht
  | received =>
    cases hfollows with
    | received ht =>
      simp only [receive]
      split
      · exact .finished
      · split
        · exact .finished
        · split
          · exact .finished
          · exact .probe ht

theorem closes_unhandled {t : String} (h : closes phase phase' = some t) :
    closeUnhandled phase = some t := by
  unfold closes at h
  split at h
  · exact h
  · cases h

end Calls

section Moves

variable {shell : String} {a : PromoteAction} {s s' : PromoteServer} {l l' : Party}

theorem PromoteMove.inTurn (h : PromoteMove shell a s l s' l') (hl : l.InTurn) :
    l'.InTurn := by
  cases h with
  | submit | clientProceeds | keepsOpen | waits | standsDown => trivial
  | promote => exact follows_tabRequest _
  | routeProceeds hproceed => exact Follows.proceed hl hproceed
  | closeProceeds hproceed =>
    rcases hl with ⟨t, rfl⟩ | ⟨result, rfl⟩
    · exact .inr (proceed_tabClose hproceed)
    · cases hproceed
  | answer | callFails | drop => exact hl
  | sends => exact .inl ⟨_, rfl⟩

theorem PromoteMove.underWay (h : PromoteMove shell a s l s' l') (hl : l.InTurn) (t : String)
    (hpos : l.unhandled t = true → 0 < s.underWay.count t) :
    s'.underWay.count t + (l.unhandled t).toNat =
      s.underWay.count t + (l'.unhandled t).toNat := by
  cases h with
  | submit | promote | clientProceeds | routeProceeds | answer | callFails | drop
  | keepsOpen | waits | standsDown => rfl
  | closeProceeds hproceed =>
    rcases hl with ⟨t', rfl⟩ | ⟨result, rfl⟩
    · obtain ⟨result, rfl⟩ := proceed_tabClose hproceed
      have hdone : Party.unhandled t (.closing (.finished result)) = false := rfl
      rw [hdone]
      by_cases heq : t' = t
      · subst heq
        have hthis : Party.unhandled t' (.closing (.received (.tabClose t'))) = true :=
          beq_iff_eq.mpr rfl
        have hone := hpos hthis
        rw [hthis]
        change (s.underWay.erase t').count t' + 1 = _
        rw [List.count_erase_self]
        simp only [Bool.toNat_false]
        omega
      · have hother : Party.unhandled t (.closing (.received (.tabClose t'))) = false := by
          simpa [Party.unhandled, closeUnhandled] using heq
        rw [hother]
        change (s.underWay.erase t').count t + 0 = _
        rw [List.count_erase_of_ne (Ne.symm heq)]
        rfl
    · cases hproceed
  | @sends _ _ _ t' =>
    rw [List.count_append]
    by_cases heq : t' = t
    · subst heq
      simp [Party.unhandled, closeUnhandled]
    · simp [Party.unhandled, closeUnhandled, heq]

theorem PromoteMove.sent (h : PromoteMove shell a s l s' l') {t : String}
    (ht : t ∈ s'.underWay) : t ∈ s.underWay ∨ s.registry.lookup t = none := by
  cases h with
  | submit | promote | clientProceeds | routeProceeds | answer | callFails | drop
  | keepsOpen | waits | standsDown => exact .inl ht
  | @closeProceeds _ _ phase =>
    left
    change t ∈ (closeUnhandled phase).toList.foldl List.erase s.underWay at ht
    cases hclose : closeUnhandled phase with
    | none =>
      rw [hclose] at ht
      exact ht
    | some t' =>
      rw [hclose] at ht
      exact List.mem_of_mem_erase ht
  | sends _ hunmarked =>
    rcases List.mem_append.mp ht with hold | hnew
    · exact .inl hold
    · right
      rw [List.mem_singleton.mp hnew]
      exact hunmarked

theorem PromoteMove.committed (h : PromoteMove shell a s l s' l')
    (hok : guardKept s l a = true) {t : String} (hl : l.committed t = true) :
    l'.committed t = true ∨ s'.registry.lookup t = some .promoted := by
  cases h with
  | submit | promote | clientProceeds | closeProceeds | keepsOpen | waits | standsDown
  | sends => cases hl
  | @routeProceeds _ _ tabId stage phase _ _ hproceed =>
    cases phase with
    | finished result => cases hproceed
    | _ => cases stage <;> cases hl
  | @answer _ tabId result =>
    cases result with
    | error message => cases hl
    | ok reply =>
      right
      dsimp only
      rw [lookup_finish, if_pos (beq_iff_eq.mp hl)]
      rfl
  | @callFails _ tabId phase =>
    cases phase with
    | finished result =>
      cases result with
      | error message => cases hl
      | ok reply =>
        have hkey : trimNonempty tabId = some t := beq_iff_eq.mp hl
        have hmarker : s.registry.lookup t = some .promoted := by
          simpa [guardKept, hkey] using hok
        right
        dsimp only
        rw [lookup_finish, if_pos hkey, hmarker]
        rfl
    | _ => cases hl
  | @drop _ tabId phase =>
    left
    cases phase with
    | finished result =>
      cases result with
      | error message => cases hl
      | ok reply => exact hl
    | _ => cases hl

theorem PromoteMove.announced (h : PromoteMove shell a s l s' l') {t : String}
    (ht : s'.registry.lookup t = some .promoted) :
    s.registry.lookup t = some .promoted ∨ l'.hasSucceeded t = true := by
  cases h with
  | submit | clientProceeds | routeProceeds | closeProceeds | drop | keepsOpen | waits
  | standsDown | sends => exact .inl ht
  | promote =>
    left
    dsimp only at ht
    rw [lookup_begin] at ht
    split at ht
    · exact eq_promoted_of_armed (Option.some.inj ht)
    · exact ht
  | @answer _ tabId result =>
    dsimp only at ht
    rw [lookup_finish] at ht
    split at ht
    · next hkey =>
        cases result with
        | error message => exact .inl (eq_promoted_of_released ht)
        | ok reply => exact .inr (beq_iff_eq.mpr hkey)
    · exact .inl ht
  | callFails =>
    left
    dsimp only at ht
    rw [lookup_finish] at ht
    split at ht
    · exact eq_promoted_of_released ht
    · exact ht

theorem PromoteMove.hasSucceeded (h : PromoteMove shell a s l s' l') {t : String}
    (hl : l.hasSucceeded t = true) : l'.hasSucceeded t = true := by
  cases h with
  | @routeProceeds _ _ tabId stage =>
    cases stage <;> exact hl
  | _ => cases hl

/-- What becomes of tabs in one step: a promotion that was free to succeed, or the
close of a teardown. -/
theorem PromoteMove.fates (h : PromoteMove shell a s l s' l')
    (hok : guardKept s l a = true) (hl : l.InTurn) :
    s'.fates = s.fates ∨
    (∃ t, s'.fates = s.fates ++ [.promoted t] ∧ t ∉ s'.underWay ∧
      (l'.committed t = true ∨ s'.registry.lookup t = some .promoted)) ∨
    ∃ t, s'.fates = s.fates ++ [.closed t] ∧ l.unhandled t = true := by
  cases h with
  | submit | promote | clientProceeds | answer | callFails | drop | keepsOpen | waits
  | standsDown | sends => exact .inl rfl
  | @closeProceeds _ _ phase phase' _ hproceed =>
    dsimp only
    cases hcloses : closes phase phase' with
    | none =>
      left
      exact List.append_nil _
    | some t =>
      right
      right
      exact ⟨t, rfl, beq_iff_eq.mpr (closes_unhandled hcloses)⟩
  | @routeProceeds env _ tabId stage phase phase' _ hproceed =>
    dsimp only
    cases hmoves : moves phase phase' with
    | none =>
      left
      exact List.append_nil _
    | some move =>
      obtain ⟨t, w⟩ := move
      obtain ⟨p, live, reply, rfl, rfl, hcommit⟩ := (proceed_cases hproceed).moves hmoves
      have hfree : t ∉ s.underWay ∧
          (Party.holds t (.route tabId stage (.promoteTabCommit t p live)) = true ∨
            s.registry.lookup t = some .promoted) := by
        simpa [guardKept, hcommit, Except.isOk, Except.toBool] using hok
      right
      left
      refine ⟨t, rfl, hfree.1, hfree.2.imp_left fun hholds => ?_⟩
      cases stage with
      | waiting | dropped => exact hholds
      | succeeded | failed => cases hholds

end Moves

/-- No tab was closed by a teardown after a promote route had it promoted. -/
def PromoteServer.PromotedSurvive (s : PromoteServer) : Prop :=
  s.fates.Pairwise fun before after => ∀ t, before = .promoted t → after ≠ .closed t

/-- The promote of the tab is out of a teardown's reach. -/
def Protected (c : Pool PromoteServer Party) (t : String) : Prop :=
  t ∉ c.shared.underWay ∧
    ((∃ i, (c.threads i).committed t = true) ∨
      c.shared.registry.lookup t = some .promoted)

structure GuardInvariant (c : Pool PromoteServer Party) : Prop where
  inTurn : ∀ i, (c.threads i).InTurn
  counts : ∀ t, Counts c.threads t (c.shared.registry.lookup t)
  announced : ∀ t, c.shared.registry.lookup t = some .promoted →
    ∃ i, (c.threads i).hasSucceeded t = true
  underWay : ∀ t, ThreadCount c.threads (Party.unhandled t) (c.shared.underWay.count t)
  protects : ∀ t, .promoted t ∈ c.shared.fates → Protected c t
  survive : c.shared.PromotedSurvive

theorem GuardInvariant.start (shell : String) :
    GuardInvariant ((promoteServer shell).start .start) where
  inTurn _ := trivial
  counts _ := ⟨nofun, fun _ => .const rfl⟩
  announced _ := nofun
  underWay _ := .const rfl
  protects _ := nofun
  survive := .nil

theorem Party.holds_of_committed {l : Party} {t : String} (h : l.committed t = true) :
    l.holds t = true := by
  unfold Party.committed at h
  split at h
  · exact h
  · exact h
  · cases h

theorem Party.settled_of_failed {l : Party} {t : String}
    (h : l.promotes t = true → l.hasFailed = true) :
    l.holds t = false ∧ l.hasSucceeded t = false := by
  cases l with
  | route tabId stage phase =>
    cases stage with
    | failed => exact ⟨rfl, rfl⟩
    | waiting | dropped =>
      refine ⟨?_, rfl⟩
      exact Bool.eq_false_iff.mpr fun hholds => Bool.false_ne_true (h hholds)
    | succeeded =>
      refine ⟨rfl, ?_⟩
      exact Bool.eq_false_iff.mpr fun hsucceeded => Bool.false_ne_true (h hsucceeded)
  | _ => exact ⟨rfl, rfl⟩

section RunSteps

variable {c : Pool PromoteServer Party} {i : Nat} {shell : String} {a : PromoteAction}
  {s' : PromoteServer} {l' : Party}

theorem GuardInvariant.marked (h : GuardInvariant c) {t : String} (ht : Protected c t) :
    c.shared.registry.lookup t ≠ none := by
  intro hunmarked
  rcases ht.2 with ⟨j, hj⟩ | hpromoted
  · have hcount := (h.counts t).held
    rw [hunmarked] at hcount
    exact absurd ((hcount nofun).pos (Party.holds_of_committed hj)) (lt_irrefl 0)
  · rw [hunmarked] at hpromoted
    cases hpromoted

theorem GuardInvariant.stays_protected (h : GuardInvariant c)
    (hmove : PromoteMove shell a c.shared (c.threads i) s' l')
    (hok : guardKept c.shared (c.threads i) a = true) {t : String} (ht : Protected c t) :
    Protected ⟨s', Function.update c.threads i l'⟩ t := by
  refine ⟨fun hsent => ?_, ?_⟩
  · rcases hmove.sent hsent with hold | hunmarked
    · exact ht.1 hold
    · exact h.marked ht hunmarked
  · by_cases hsays : s'.registry.lookup t = some .promoted
    · exact .inr hsays
    · left
      rcases ht.2 with hcommitted | hpromoted
      · exact Program.exists_thread_update (p := fun l : Party => l.committed t = true) hcommitted
          fun hi => (hmove.committed hok hi).resolve_right hsays
      · exact absurd ((hmove.marker hok t).promoted hpromoted) hsays

theorem GuardInvariant.step (h : GuardInvariant c)
    (hmove : PromoteMove shell a c.shared (c.threads i) s' l')
    (hok : guardKept c.shared (c.threads i) a = true) :
    GuardInvariant ⟨s', Function.update c.threads i l'⟩ where
  inTurn j := by
    dsimp only
    rcases eq_or_ne j i with rfl | hj
    · rw [Function.update_self]
      exact hmove.inTurn (h.inTurn j)
    · rw [Function.update_of_ne hj]
      exact h.inTurn j
  counts t := (h.counts t).move (hmove.marker hok t)
  announced t ht := by
    rcases hmove.announced ht with hold | hnew
    · exact Program.exists_thread_update (p := fun l : Party => l.hasSucceeded t = true)
        (h.announced t hold) hmove.hasSucceeded
    · refine ⟨i, ?_⟩
      dsimp only
      rw [Function.update_self]
      exact hnew
  underWay t := (h.underWay t).update i
    (hmove.underWay (h.inTurn i) t fun hi => (h.underWay t).pos hi)
  protects t ht := by
    dsimp only at ht
    rcases hmove.fates hok (h.inTurn i) with hsame | ⟨t', hfates, hout, hguard⟩ | ⟨t', hfates, _⟩
    · rw [hsame] at ht
      exact h.stays_protected hmove hok (h.protects t ht)
    · rw [hfates, List.mem_append, List.mem_singleton] at ht
      rcases ht with hold | hnew
      · exact h.stays_protected hmove hok (h.protects t hold)
      · obtain rfl := TabFate.promoted.inj hnew
        refine ⟨hout, hguard.imp_left fun hcommitted => ⟨i, ?_⟩⟩
        dsimp only
        rw [Function.update_self]
        exact hcommitted
    · rw [hfates, List.mem_append, List.mem_singleton] at ht
      rcases ht with hold | hnew
      · exact h.stays_protected hmove hok (h.protects t hold)
      · cases hnew
  survive := by
    rcases hmove.fates hok (h.inTurn i) with hsame | ⟨t, hpromoted, _⟩ | ⟨t, hclosed, hi⟩
    · unfold PromoteServer.PromotedSurvive
      rw [hsame]
      exact h.survive
    · unfold PromoteServer.PromotedSurvive
      rw [hpromoted]
      refine List.pairwise_append.mpr ⟨h.survive, List.pairwise_singleton _ _, ?_⟩
      rintro before _ after hafter t' -
      rw [List.mem_singleton.mp hafter]
      exact nofun
    · unfold PromoteServer.PromotedSurvive
      rw [hclosed]
      refine List.pairwise_append.mpr ⟨h.survive, List.pairwise_singleton _ _, ?_⟩
      rintro before hbefore after hafter t' rfl heq
      rw [List.mem_singleton.mp hafter] at heq
      obtain rfl := TabFate.closed.inj heq
      have hwaiting := List.count_pos_iff.mp ((h.underWay _).pos hi)
      exact (h.protects _ hbefore).1 hwaiting

end RunSteps

theorem promoteServer_invariant {shell : String} {c : Pool PromoteServer Party}
    (h : (promoteServer shell).system.ReachVia
      (fun c act => guardKept c.shared (c.threads act.1) act.2 = true) c) :
    GuardInvariant c := by
  refine h.invariant ?_ ?_
  · rintro _ ⟨s, rfl, rfl⟩
    exact .start shell
  · rintro c ⟨i, a⟩ c' _ hc hok hstep
    obtain ⟨s', l', hlocal, rfl⟩ := Program.poolStep_cases hstep
    exact hc.step (promoteStep_cases hlocal) hok

/-- In a run whose steps keep the guard, no teardown closes a tab that was promoted,
and the marker of a tab is gone once every promote of it has failed. -/
theorem promoted_surviveTeardown {shell : String} {c : Pool PromoteServer Party}
    (h : (promoteServer shell).system.ReachVia
      (fun c act => guardKept c.shared (c.threads act.1) act.2 = true) c) :
    c.shared.PromotedSurvive ∧
    ∀ t, (∀ i, (c.threads i).promotes t = true → (c.threads i).hasFailed = true) →
      t ∉ c.shared.registry := by
  have hinv := promoteServer_invariant h
  refine ⟨hinv.survive, fun t hfailed => ?_⟩
  have hsettled (i : Nat) := Party.settled_of_failed (hfailed i)
  have hcounts := hinv.counts t
  rw [← Finmap.lookup_eq_none]
  cases hmarker : c.shared.registry.lookup t with
  | none => rfl
  | some marker =>
    cases marker with
    | promoted =>
      obtain ⟨i, hi⟩ := hinv.announced t hmarker
      rw [(hsettled i).2] at hi
      cases hi
    | promoting count =>
      rw [hmarker] at hcounts
      have hzero : count = 0 := (hcounts.held nofun).eq_zero fun i => (hsettled i).1
      rw [hzero] at hcounts
      exact absurd rfl hcounts.nonzero

/-- A temporary terminal: the tab is `tab_2`. -/
def temporaryTerminal : List (Nat × PromoteAction) :=
  [(0, .submit (.workspaceCreate (some "/work") none none)), (0, .proceed plainEnvironment),
    (0, .proceed plainEnvironment), (0, .proceed plainEnvironment),
    (0, .proceed plainEnvironment)]

/-- The promote is armed within the grace of the first teardown. A promote of a tab
that does not exist fails. -/
def promotedInGrace : List (Nat × PromoteAction) :=
  temporaryTerminal ++
    [(1, .teardown false (some "tab_2")), (2, .promote "tab_2"), (1, .wake),
      (2, .proceed movedEnvironment), (2, .proceed movedEnvironment),
      (2, .proceed movedEnvironment), (2, .answer), (3, .teardown false (some "tab_2")),
      (4, .promote "tab_9"), (4, .proceed movedEnvironment), (4, .answer)]

theorem promotedInGrace_survives :
    ∃ c, (promoteServer "sh").system.runVia
        (fun c act => guardKept c.shared (c.threads act.1) act.2 = true)
        ((promoteServer "sh").start .start) promotedInGrace = some c ∧
      c.shared.fates = [.promoted "tab_2"] ∧ c.shared.PromotedSurvive ∧
      "tab_9" ∉ c.shared.registry := by
  have hrun : ((promoteServer "sh").system.runVia
      (fun c act => guardKept c.shared (c.threads act.1) act.2 = true)
      ((promoteServer "sh").start .start) promotedInGrace).isSome := by
    decide +kernel
  refine ⟨_, (Option.some_get hrun).symm, ?_, ?_, ?_⟩
  · decide +kernel +revert
  · have hall := promoted_surviveTeardown
      (System.reachVia_get ((promoteServer "sh").system_init rfl) hrun)
    exact hall.1
  · have hall := promoted_surviveTeardown
      (System.reachVia_get ((promoteServer "sh").system_init rfl) hrun)
    refine hall.2 "tab_9" (Program.forall_threads_of_runVia
      (p := fun l : Party => l.promotes "tab_9" = true → l.hasFailed = true)
      (Option.some_get hrun).symm nofun ?_)
    clear hall
    decide +kernel +revert

/-- The teardown has looked twice, then the promote is armed and succeeds, then the
close arrives. -/
def promotedAfterLooks : List (Nat × PromoteAction) :=
  temporaryTerminal ++
    [(1, .teardown false (some "tab_2")), (1, .wake), (2, .promote "tab_2"),
      (2, .proceed movedEnvironment), (2, .proceed movedEnvironment),
      (2, .proceed movedEnvironment), (1, .proceed plainEnvironment), (2, .answer)]

theorem promotedAfterLooks_closed :
    ∃ c, (promoteServer "sh").system.Reachable c ∧
      c.shared.fates = [.promoted "tab_2", .closed "tab_2"] ∧
      c.shared.registry.lookup "tab_2" = some .promoted ∧ "tab_2" ∉ c.shared.data.tabs ∧
      ¬ c.shared.PromotedSurvive := by
  have hrun : ((promoteServer "sh").system.run ((promoteServer "sh").start .start)
      promotedAfterLooks).isSome := by
    decide +kernel
  have hfates : (((promoteServer "sh").system.run ((promoteServer "sh").start .start)
      promotedAfterLooks).get hrun).shared.fates =
        [.promoted "tab_2", .closed "tab_2"] := by
    decide +kernel +revert
  refine ⟨_, System.reachable_get ((promoteServer "sh").system_init rfl) hrun, hfates, ?_,
    ?_, ?_⟩
  · decide +kernel +revert
  · decide +kernel +revert
  · intro hsurvive
    rw [PromoteServer.PromotedSurvive, hfates] at hsurvive
    have hpair := List.rel_of_pairwise_cons hsurvive (List.mem_singleton_self _)
    exact hpair "tab_2" rfl rfl

end HerdrWebui.Server
