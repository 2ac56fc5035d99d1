import HerdrWebui.Concurrency.Counting
import HerdrWebui.Server.Sessions

/-!
The throttle of guesses. A login asks the limiter before its password is verified
and tells it the verdict afterwards, in lock holds of their own. The requests run
under a clock that never goes back, and a history of verdicts is kept beside them.
-/

namespace HerdrWebui.Server

open Concurrency

/-- What a login did, as no code keeps it. -/
inductive LoginEvent where
  | verified (remote : IpAddr) (time : SystemTime) (accepted : Bool)
  | succeeded (remote : IpAddr)
  deriving DecidableEq

namespace LoginEvent

def succeeds (ip : IpAddr) : LoginEvent → Bool
  | .succeeded remote => remote == ip
  | .verified _ _ _ => false

/-- A verification that failed, less than a window before `now`. -/
def failedSince (ip : IpAddr) (now : SystemTime) : LoginEvent → Bool
  | .verified remote time false => remote == ip && now < time + window
  | _ => false

/-- A verification that failed in the window that begins at `start`. -/
def failedWithin (ip : IpAddr) (start : SystemTime) : LoginEvent → Bool
  | .verified remote time false => remote == ip && start ≤ time && time < start + window
  | _ => false

end LoginEvent

/-- The failures less than a window old that no success of the address came after.
The history has its newest event first. -/
def recentFailures (ip : IpAddr) (now : SystemTime) (events : List LoginEvent) : Nat :=
  (events.takeWhile fun e => !e.succeeds ip).countP (·.failedSince ip now)

/-- At most so many guesses fail in a window without a success, and none is verified
once so many have. -/
structure GuessesBounded (ip : IpAddr) (events : List LoginEvent) : Prop where
  window : ∀ segment start, segment <:+: events →
    (∀ e ∈ segment, e.succeeds ip = false) →
    segment.countP (·.failedWithin ip start) ≤ maxAttempts
  refused : ∀ later time accepted earlier,
    events = later ++ .verified ip time accepted :: earlier →
    recentFailures ip time earlier < maxAttempts

structure TimedServer where
  server : ServerState
  /-- The last reading of the clock. -/
  now : SystemTime
  events : List LoginEvent
  /-- The logins of an address that passed the check and may still record a failure. -/
  inFlight : IpAddr → Nat

structure TimedRequest where
  phase : RequestPhase
  /-- The time of its last step. -/
  since : SystemTime

/-- The reading of the clock that a step uses, if it uses one. -/
def RequestAction.clock : RequestAction → Option SystemTime
  | .rateCheck _ _ _ now | .recordFailure now | .issueSession now _ | .authorize now _
  | .purgeLapsed now | .install now _ => some now
  | _ => none

def RequestPhase.mayFail (ip : IpAddr) : RequestPhase → Bool
  | .admitted remote _ _ | .refused remote => remote == ip
  | _ => false

def loginEvents (time : SystemTime) : (l l' : RequestPhase) → List LoginEvent
  | .admitted _ _ _, .refused remote => [.verified remote time false]
  | .admitted _ _ _, .verified remote _ => [.verified remote time true]
  | .verified remote _, _ => [.succeeded remote]
  | _, _ => []

section Step

variable (verifyPassword : String → String → Bool)

/-- A step of `requestStep` at a time that the clock has not passed. -/
def timedStep (a : RequestAction × SystemTime) (s : TimedServer) (l : TimedRequest) :
    Option (TimedServer × TimedRequest) :=
  if s.now ≤ a.2 ∧ a.1.clock.all (· = a.2) then
    (requestStep verifyPassword a.1 s.server l.phase).map fun (server, phase) =>
      ({ server
         now := a.2
         events := loginEvents a.2 l.phase phase ++ s.events
         inFlight := fun ip =>
           s.inFlight ip + (phase.mayFail ip).toNat - (l.phase.mayFail ip).toNat },
        ⟨phase, a.2⟩)
  else none

def timedRequests : Program TimedServer TimedRequest (RequestAction × SystemTime) where
  init s := s.server.loginLimiter = .new ∧ s.events = [] ∧ s.inFlight = fun _ => 0
  idle := ⟨.idle, 0⟩
  step := timedStep verifyPassword

end Step

/-- The failures the limiter keeps of an address that are less than a window old. -/
def LoginRateLimiter.recent (limiter : LoginRateLimiter) (ip : IpAddr) (now : SystemTime) :
    Nat :=
  (limiter.failures ip).countP (now < · + window)

/-- A login passes the check only while the failures kept of its address leave room for
those that its other logins in flight may record. -/
def leavesRoom (s : TimedServer) (a : RequestAction) : Bool :=
  match a with
  | .rateCheck remote _ _ now =>
    let kept := s.server.loginLimiter.recent remote now
    maxAttempts ≤ kept || kept + s.inFlight remote < maxAttempts
  | _ => true

namespace LoginRateLimiter

variable {limiter : LoginRateLimiter} {ip remote : IpAddr} {now n : SystemTime}

theorem recent_antitone (h : now ≤ n) : limiter.recent ip n ≤ limiter.recent ip now := by
  apply List.countP_mono_left
  intro time _ htime
  rw [decide_eq_true_eq] at htime ⊢
  exact h.trans_lt htime

theorem isBlocked_failures :
    (limiter.isBlocked remote now).2.failures =
      Function.update limiter.failures remote
        ((limiter.failures remote).filter (now < · + window)) := by
  have hkept : (limiter.isBlocked remote now).2.failures =
      Function.update limiter.failures remote
        (if window ≤ now then (limiter.failures remote).filter (· > now - window)
        else limiter.failures remote) := rfl
  rw [hkept]
  congr 1
  split
  · next hle =>
      apply List.filter_congr
      intro time _
      rw [decide_eq_decide, gt_iff_lt, Nat.sub_lt_iff_lt_add hle]
  · next hlt =>
      refine (List.filter_eq_self.mpr fun time _ => ?_).symm
      rw [decide_eq_true_eq]
      exact (Nat.lt_of_not_le hlt).trans_le (Nat.le_add_left _ _)

theorem isBlocked_recent (h : now ≤ n) :
    (limiter.isBlocked remote now).2.recent ip n = limiter.recent ip n := by
  rw [recent, isBlocked_failures]
  rcases eq_or_ne ip remote with rfl | hne
  · rw [Function.update_self, List.countP_filter]
    apply List.countP_congr
    intro time _
    rw [Bool.and_eq_true, decide_eq_true_eq, decide_eq_true_eq, and_iff_left_iff_imp]
    exact h.trans_lt
  · rw [Function.update_of_ne hne]
    rfl

theorem isBlocked_iff :
    (limiter.isBlocked remote now).1 = true ↔ maxAttempts ≤ limiter.recent remote now := by
  have hkept : (limiter.isBlocked remote now).1 =
      decide (((limiter.isBlocked remote now).2.failures remote).length ≥ maxAttempts) := by
    simp only [isBlocked, Function.update_self]
  rw [hkept, isBlocked_failures, Function.update_self, ← List.countP_eq_length_filter,
    decide_eq_true_eq]
  rfl

theorem recordFailure_recent :
    (limiter.recordFailure remote now).recent ip n =
      limiter.recent ip n + if ip = remote ∧ n < now + window then 1 else 0 := by
  rcases eq_or_ne ip remote with rfl | hne
  · simp [recent, recordFailure, List.countP_append, List.countP_cons]
  · simp [recent, recordFailure, hne]

theorem reset_recent :
    (limiter.reset remote).recent ip n = if ip = remote then 0 else limiter.recent ip n := by
  split
  · next h => simp [recent, reset, h]
  · next h => simp [recent, reset, Function.update_of_ne h]

end LoginRateLimiter

section History

variable {ip remote : IpAddr} {now n time : SystemTime} {events : List LoginEvent}

theorem recentFailures_failed :
    recentFailures ip n (.verified remote time false :: events) =
      recentFailures ip n events + if ip = remote ∧ n < time + window then 1 else 0 := by
  simp only [recentFailures, LoginEvent.succeeds, Bool.not_false, List.takeWhile_cons_of_pos,
    List.countP_cons, LoginEvent.failedSince, Bool.and_eq_true, beq_iff_eq, decide_eq_true_eq]
  simp only [eq_comm]

theorem recentFailures_accepted :
    recentFailures ip n (.verified remote time true :: events) =
      recentFailures ip n events := by
  simp [recentFailures, LoginEvent.succeeds, LoginEvent.failedSince]

theorem recentFailures_succeeded :
    recentFailures ip n (.succeeded remote :: events) =
      if ip = remote then 0 else recentFailures ip n events := by
  rcases eq_or_ne ip remote with rfl | hne
  · simp [recentFailures, LoginEvent.succeeds]
  · simp [recentFailures, LoginEvent.succeeds, LoginEvent.failedSince, hne, hne.symm]

theorem countP_failedWithin_le {segment : List LoginEvent} (rest : List LoginEvent)
    {start : SystemTime}
    (hnone : ∀ e ∈ segment, e.succeeds ip = false) (hlt : now < start + window) :
    segment.countP (·.failedWithin ip start) ≤ recentFailures ip now (segment ++ rest) := by
  rw [recentFailures, List.takeWhile_append_of_pos (by simpa using hnone), List.countP_append]
  refine le_trans ?_ (Nat.le_add_right _ _)
  apply List.countP_mono_left
  intro e _ he
  rcases e with ⟨remote, time, _ | _⟩ | remote
  · simp only [LoginEvent.failedWithin, Bool.and_eq_true, decide_eq_true_eq] at he
    simp only [LoginEvent.failedSince, Bool.and_eq_true, decide_eq_true_eq]
    exact ⟨he.1.1, hlt.trans_le (Nat.add_le_add_right he.1.2 _)⟩
  · cases he
  · cases he

/-- The bound on every window follows from the refusals: the last failure of a window
was verified. -/
theorem GuessesBounded.of_refused
    (h : ∀ later time accepted earlier,
      events = later ++ .verified ip time accepted :: earlier →
      recentFailures ip time earlier < maxAttempts) : GuessesBounded ip events := by
  refine ⟨fun segment start hinfix hnone => ?_, h⟩
  obtain ⟨later, earlier, rfl⟩ := hinfix
  induction segment generalizing later with
  | nil => exact Nat.zero_le _
  | cons e segment ih =>
    have hrest : segment.countP (·.failedWithin ip start) ≤ maxAttempts := by
      refine ih ?_ (later ++ [e]) ?_
      · exact fun e' he' => hnone e' (List.mem_cons_of_mem _ he')
      · rwa [List.append_assoc later, List.singleton_append]
    rw [List.countP_cons]
    split
    · next he =>
        rcases e with ⟨remote, time, _ | _⟩ | remote
        · simp only [LoginEvent.failedWithin, Bool.and_eq_true, beq_iff_eq,
            decide_eq_true_eq] at he
          obtain ⟨⟨rfl, -⟩, hlt⟩ := he
          have hlast := h later time false (segment ++ earlier) (by simp)
          have hcount := countP_failedWithin_le earlier
            (fun e' he' => hnone e' (List.mem_cons_of_mem _ he')) hlt
          omega
        · cases he
        · cases he
    · exact hrest

end History

/-- The steps, as far as the limiter and the history go. -/
inductive LoginMove (limiter : LoginRateLimiter) (time : SystemTime) :
    RequestPhase → RequestPhase → LoginRateLimiter → List LoginEvent → Prop
  | quiet {l l' : RequestPhase} (hl : ∀ ip, l.mayFail ip = false)
      (hl' : ∀ ip, l'.mayFail ip = false) : LoginMove limiter time l l' limiter []
  | blocked {remote : IpAddr} :
      LoginMove limiter time .idle .idle (limiter.isBlocked remote time).2 []
  | admitted {remote : IpAddr} {username password : String}
      (h : limiter.recent remote time < maxAttempts) :
      LoginMove limiter time .idle (.admitted remote username password)
        (limiter.isBlocked remote time).2 []
  | bypass {remote : IpAddr} {username password : String} :
      LoginMove limiter time (.admitted remote username password) (.issuing .bypass)
        limiter []
  | accepted {remote : IpAddr} {username password : String} {origin : SessionOrigin} :
      LoginMove limiter time (.admitted remote username password) (.verified remote origin)
        limiter [.verified remote time true]
  | failed {remote : IpAddr} {username password : String} :
      LoginMove limiter time (.admitted remote username password) (.refused remote)
        limiter [.verified remote time false]
  | recorded {remote : IpAddr} :
      LoginMove limiter time (.refused remote) .idle (limiter.recordFailure remote time) []
  | reset {remote : IpAddr} {origin : SessionOrigin} :
      LoginMove limiter time (.verified remote origin) (.issuing origin)
        (limiter.reset remote) [.succeeded remote]

section Move

variable {verifyPassword : String → String → Bool} {a : RequestAction} {time : SystemTime}
  {s s' : ServerState} {l l' : RequestPhase}

theorem requestStep_loginMove (h : requestStep verifyPassword a s l = some (s', l'))
    (hclock : a.clock.all (· = time) = true) :
    LoginMove s.loginLimiter time l l' s'.loginLimiter (loginEvents time l l') := by
  cases requestStep_cases h with
  | @rateCheck remote username password now =>
    obtain rfl : now = time := of_decide_eq_true hclock
    have hl' : l' = if (s.loginLimiter.isBlocked remote now).1 then .idle
        else .admitted remote username password :=
      (Prod.mk.inj (Option.some.inj h)).2.symm
    rw [hl']
    split
    · exact .blocked
    · next hadmitted =>
        rw [LoginRateLimiter.isBlocked_iff, not_le] at hadmitted
        exact .admitted hadmitted
  | bypass => exact .bypass
  | verify => exact .accepted
  | refuse => exact .failed
  | @recordFailure remote now =>
    obtain rfl : now = time := of_decide_eq_true hclock
    exact .recorded
  | resetLimiter => exact .reset
  | _ => exact .quiet (fun _ => rfl) (fun _ => rfl)

theorem requestStep_admitted {remote : IpAddr} {username password : String}
    (h : requestStep verifyPassword a s l = some (s', .admitted remote username password)) :
    ∃ now, a = .rateCheck remote username password now := by
  rcases requestStep_cases h with ⟨hidle | hadmitted⟩ | _
  · cases hidle
  · cases hadmitted
    exact ⟨_, rfl⟩

theorem timedStep_cases {a : RequestAction × SystemTime} {s s' : TimedServer}
    {l l' : TimedRequest} (h : timedStep verifyPassword a s l = some (s', l')) :
    s.now ≤ a.2 ∧ s'.now = a.2 ∧ l'.since = a.2 ∧
      s'.events = loginEvents a.2 l.phase l'.phase ++ s.events ∧
      (∀ ip, s'.inFlight ip =
        s.inFlight ip + (l'.phase.mayFail ip).toNat - (l.phase.mayFail ip).toNat) ∧
      a.1.clock.all (· = a.2) = true ∧
      requestStep verifyPassword a.1 s.server l.phase = some (s'.server, l'.phase) := by
  unfold timedStep at h
  split at h
  · next hclock =>
      obtain ⟨next, hnext, hpair⟩ := Option.map_eq_some_iff.mp h
      cases hpair
      exact ⟨hclock.1, rfl, rfl, rfl, fun _ => rfl, hclock.2, hnext⟩
  · cases h

end Move

/-- A failure that is not recorded yet, of a verification less than a window old. -/
def TimedRequest.unrecorded (ip : IpAddr) (now : SystemTime) (l : TimedRequest) : Bool :=
  l.phase = .refused ip && now < l.since + window

section Measures

variable {limiter limiter' : LoginRateLimiter} {time n : SystemTime} {l l' : TimedRequest}
  {events new : List LoginEvent} {ip : IpAddr}

theorem TimedRequest.mayFail_of_unrecorded (h : l.unrecorded ip n = true) :
    l.phase.mayFail ip = true := by
  rw [unrecorded, Bool.and_eq_true, decide_eq_true_eq] at h
  rw [h.1, RequestPhase.mayFail, beq_self_eq_true]

theorem TimedRequest.unrecorded_eq_false (h : l.phase.mayFail ip = false) :
    l.unrecorded ip n = false :=
  Bool.eq_false_iff.mpr fun hu => by
    rw [mayFail_of_unrecorded hu] at h
    cases h

theorem TimedRequest.unrecorded_idle {since : SystemTime} :
    (TimedRequest.mk .idle since).unrecorded ip n = false := by
  simp [unrecorded]

theorem TimedRequest.unrecorded_admitted {remote : IpAddr} {username password : String}
    {since : SystemTime} :
    (TimedRequest.mk (.admitted remote username password) since).unrecorded ip n = false := by
  simp [unrecorded]

theorem TimedRequest.unrecorded_refused {remote : IpAddr} {since : SystemTime} :
    ((TimedRequest.mk (.refused remote) since).unrecorded ip n).toNat =
      if ip = remote ∧ n < since + window then 1 else 0 := by
  split
  · next h => simp [unrecorded, h.1, h.2]
  · next h =>
      rw [Bool.toNat_eq_zero, unrecorded, Bool.and_eq_false_imp, decide_eq_true_eq]
      rintro ⟨rfl⟩
      exact decide_eq_false fun hlt => h ⟨rfl, hlt⟩

theorem LoginMove.room (h : LoginMove limiter time l.phase l'.phase limiter' new)
    (ip : IpAddr) (hn : time ≤ n) :
    limiter'.recent ip n + (l'.phase.mayFail ip).toNat ≤
        limiter.recent ip n + (l.phase.mayFail ip).toNat ∨
      (∃ username password, l'.phase = .admitted ip username password) ∧
        limiter.recent ip time < maxAttempts ∧
        limiter'.recent ip n = limiter.recent ip n := by
  obtain ⟨phase, since⟩ := l
  obtain ⟨phase', since'⟩ := l'
  cases h with
  | quiet hl hl' => exact .inl (by simp only [hl, hl', le_refl])
  | blocked => exact .inl (by rw [LoginRateLimiter.isBlocked_recent hn])
  | @admitted remote username password hroom =>
    rw [LoginRateLimiter.isBlocked_recent hn]
    rcases eq_or_ne remote ip with rfl | hne
    · exact .inr ⟨⟨username, password, rfl⟩, hroom, rfl⟩
    · exact .inl (by simp [RequestPhase.mayFail, hne])
  | bypass => exact .inl (by simp [RequestPhase.mayFail])
  | accepted => exact .inl (by simp [RequestPhase.mayFail])
  | failed => exact .inl (by simp [RequestPhase.mayFail])
  | @recorded remote =>
    rw [LoginRateLimiter.recordFailure_recent]
    rcases eq_or_ne remote ip with rfl | hne
    · left
      simp only [RequestPhase.mayFail, beq_self_eq_true, Bool.toNat_true, Bool.toNat_false]
      split <;> omega
    · left
      simp [RequestPhase.mayFail, hne.symm]
  | reset =>
    rw [LoginRateLimiter.reset_recent]
    left
    split <;> simp [RequestPhase.mayFail]

theorem LoginMove.kept (h : LoginMove limiter time l.phase l'.phase limiter' new)
    (ip : IpAddr) (events : List LoginEvent) (hn : time ≤ n) (hpast : l.since ≤ time)
    (hsince : l'.since = time) :
    recentFailures ip n (new ++ events) = 0 ∨
      recentFailures ip n (new ++ events) + limiter.recent ip n +
          (l.unrecorded ip n).toNat ≤
        recentFailures ip n events + limiter'.recent ip n + (l'.unrecorded ip n).toNat := by
  obtain ⟨phase, since⟩ := l
  obtain ⟨phase', since'⟩ := l'
  obtain rfl : time = since' := hsince.symm
  cases h with
  | quiet hl hl' =>
    right
    rw [TimedRequest.unrecorded_eq_false (hl ip), TimedRequest.unrecorded_eq_false (hl' ip)]
    exact le_rfl
  | blocked =>
    right
    rw [LoginRateLimiter.isBlocked_recent hn]
    simp [TimedRequest.unrecorded]
  | admitted =>
    right
    rw [LoginRateLimiter.isBlocked_recent hn]
    simp [TimedRequest.unrecorded]
  | bypass => exact .inr (by simp [TimedRequest.unrecorded])
  | accepted =>
    right
    rw [List.singleton_append, recentFailures_accepted]
    simp [TimedRequest.unrecorded]
  | @failed remote username password =>
    right
    rw [List.singleton_append, recentFailures_failed, TimedRequest.unrecorded_refused,
      TimedRequest.unrecorded_admitted, Bool.toNat_false]
    omega
  | @recorded remote =>
    right
    rw [List.nil_append, LoginRateLimiter.recordFailure_recent,
      TimedRequest.unrecorded_refused, TimedRequest.unrecorded_idle, Bool.toNat_false]
    -- The failure is recorded no earlier than it was found.
    have hlater : (ip = remote ∧ n < since + window) → ip = remote ∧ n < time + window :=
      fun ⟨hip, hlt⟩ => ⟨hip, hlt.trans_le (Nat.add_le_add_right hpast _)⟩
    split
    · next h =>
        rw [if_pos (hlater h)]
        omega
    · omega
  | @reset remote =>
    rw [List.singleton_append, recentFailures_succeeded, LoginRateLimiter.reset_recent]
    split
    · exact .inl rfl
    · exact .inr (by simp [TimedRequest.unrecorded])

theorem LoginMove.verified {accepted : Bool}
    (h : LoginMove limiter time l.phase l'.phase limiter' new)
    (hmem : .verified ip n accepted ∈ new) :
    new = [.verified ip n accepted] ∧ n = time ∧ l.phase.mayFail ip = true ∧
      l.unrecorded ip time = false := by
  obtain ⟨phase, since⟩ := l
  obtain ⟨phase', since'⟩ := l'
  cases h with
  | accepted | failed =>
    obtain ⟨rfl, rfl, rfl⟩ := LoginEvent.verified.inj (List.mem_singleton.mp hmem)
    exact ⟨rfl, rfl, beq_self_eq_true _, TimedRequest.unrecorded_admitted⟩
  | reset => cases List.mem_singleton.mp hmem
  | _ => cases hmem

end Measures

/-- At every time the clock may read next: the failures of the history are kept or not
yet recorded, and those kept leave room for those in flight. -/
structure ThrottleInvariant (ip : IpAddr) (c : Pool TimedServer TimedRequest) : Prop where
  past : ∀ i, (c.threads i).since ≤ c.shared.now
  inFlight : ThreadCount c.threads (·.phase.mayFail ip) (c.shared.inFlight ip)
  kept : ∀ n, c.shared.now ≤ n → ∃ unrecorded,
    ThreadCount c.threads (·.unrecorded ip n) unrecorded ∧
      recentFailures ip n c.shared.events ≤
        c.shared.server.loginLimiter.recent ip n + unrecorded
  room : ∀ n, c.shared.now ≤ n →
    c.shared.server.loginLimiter.recent ip n + c.shared.inFlight ip ≤ maxAttempts
  refused : ∀ later time accepted earlier,
    c.shared.events = later ++ .verified ip time accepted :: earlier →
    recentFailures ip time earlier < maxAttempts

section Run

variable {verifyPassword : String → String → Bool} {ip : IpAddr}
  {c : Pool TimedServer TimedRequest} {i : Nat} {a : RequestAction × SystemTime}
  {s' : TimedServer} {l' : TimedRequest}

theorem ThrottleInvariant.start {s : TimedServer}
    (h : (timedRequests verifyPassword).init s) :
    ThrottleInvariant ip ((timedRequests verifyPassword).start s) := by
  obtain ⟨hlimiter, hevents, hinFlight⟩ := h
  constructor
  · exact fun _ => Nat.zero_le _
  · dsimp only [Program.start]
    rw [hinFlight]
    exact .const rfl
  · intro n _
    refine ⟨0, .const TimedRequest.unrecorded_idle, ?_⟩
    dsimp only [Program.start]
    rw [hevents]
    exact Nat.zero_le _
  · intro n _
    dsimp only [Program.start]
    rw [hlimiter, hinFlight]
    exact Nat.zero_le _
  · intro later time accepted earlier heq
    dsimp only [Program.start] at heq
    rw [hevents] at heq
    exact absurd heq.symm (by simp)

theorem ThrottleInvariant.step (h : ThrottleInvariant ip c)
    (hok : leavesRoom c.shared a.1 = true)
    (hstep : timedStep verifyPassword a c.shared (c.threads i) = some (s', l')) :
    ThrottleInvariant ip ⟨s', Function.update c.threads i l'⟩ := by
  obtain ⟨hnow, hnow', hsince, hevents, hinFlight, hclock, hserver⟩ := timedStep_cases hstep
  have hmove := requestStep_loginMove hserver hclock
  have hle {n : Nat} (hn : s'.now ≤ n) : a.2 ≤ n := hnow' ▸ hn
  have hold {n : Nat} (hn : s'.now ≤ n) : c.shared.now ≤ n := hnow.trans (hle hn)
  have hcounted : ((c.threads i).phase.mayFail ip).toNat ≤ c.shared.inFlight ip :=
    h.inFlight.toNat_le i
  constructor
  case past =>
    intro j
    dsimp only
    rcases eq_or_ne j i with rfl | hj
    · rw [Function.update_self, hsince, hnow']
    · rw [Function.update_of_ne hj, hnow']
      exact (h.past j).trans hnow
  case inFlight =>
    apply h.inFlight.update i
    rw [hinFlight]
    omega
  case kept =>
    intro n hn
    obtain ⟨unrecorded, hcount, hkept⟩ := h.kept n (hold hn)
    have hthis : ((c.threads i).unrecorded ip n).toNat ≤ unrecorded := hcount.toNat_le i
    refine ⟨unrecorded + (l'.unrecorded ip n).toNat - ((c.threads i).unrecorded ip n).toNat,
      hcount.update i (by omega), ?_⟩
    dsimp only
    rw [hevents]
    rcases hmove.kept ip c.shared.events (hle hn) ((h.past i).trans hnow) hsince with hnone | hmade
    · omega
    · omega
  case room =>
    intro n hn
    have hroom := h.room n (hold hn)
    dsimp only
    rw [hinFlight]
    rcases hmove.room ip (hle hn) with hless | ⟨⟨username, password, hadmitted⟩, hfew, hsame⟩
    · omega
    · rw [hadmitted] at hserver
      obtain ⟨now, ha⟩ := requestStep_admitted hserver
      rw [ha] at hok hclock
      have hnow : now = a.2 := of_decide_eq_true hclock
      rw [leavesRoom, hnow, Bool.or_eq_true, decide_eq_true_eq, decide_eq_true_eq] at hok
      have hfits := hok.resolve_left (not_le.mpr hfew)
      have hfewer : c.shared.server.loginLimiter.recent ip n ≤
          c.shared.server.loginLimiter.recent ip a.2 :=
        LoginRateLimiter.recent_antitone (hle hn)
      have hone := Bool.toNat_le (l'.phase.mayFail ip)
      omega
  case refused =>
    intro later time accepted earlier heq
    dsimp only at heq
    rw [hevents, List.append_eq_append_iff] at heq
    rcases heq with ⟨rest, hlater, hrest⟩ | ⟨rest, hnew, hrest⟩
    · exact h.refused rest time accepted earlier hrest
    · cases rest with
      | nil => exact h.refused [] time accepted earlier hrest.symm
      | cons e rest =>
        obtain ⟨rfl, rfl⟩ := List.cons.inj hrest
        obtain ⟨hone, rfl, hmay, hrefuses⟩ := hmove.verified
          (hnew ▸ List.mem_append_right later List.mem_cons_self)
        obtain ⟨unrecorded, hcount, hkept⟩ := h.kept a.2 hnow
        have hfew := h.room a.2 hnow
        have hlt := hcount.lt_of_imp h.inFlight
          (fun j => TimedRequest.mayFail_of_unrecorded) hmay hrefuses
        obtain rfl : rest = [] := by
          have hlength := congrArg List.length (hone.symm.trans hnew)
          simp only [List.length_append, List.length_cons, List.length_nil] at hlength
          exact List.length_eq_zero_iff.mp (by omega)
        change recentFailures ip a.2 c.shared.events < maxAttempts
        omega

/-- In every run in which a login passes the check only while there is room for it, the
guesses at every address are bounded. -/
theorem login_throttled
    (h : (timedRequests verifyPassword).system.ReachVia
      (fun c act => leavesRoom c.shared act.2.1 = true) c) (ip : IpAddr) :
    GuessesBounded ip c.shared.events := by
  have hinvariant : ThrottleInvariant ip c := by
    refine h.invariant ?_ ?_
    · rintro _ ⟨s, hs, rfl⟩
      exact .start hs
    · rintro c ⟨i, a⟩ c' _ hc hok hs
      obtain ⟨s', l', hlocal, rfl⟩ := Program.poolStep_cases hs
      exact hc.step hok hlocal
  exact .of_refused hinvariant.refused

end Run

def throttledServer : TimedServer :=
  ⟨bootState (.fromParts (some "user") (some "#pw") false 30), 0, [], fun _ => 0⟩

theorem throttledServer_init : (timedRequests plainHash).init throttledServer :=
  ⟨rfl, rfl, rfl⟩

def guess (i : Nat) (time : SystemTime) : List (Nat × RequestAction × SystemTime) :=
  [(i, .rateCheck remote "user" "wrong" time, time), (i, .verifyCredentials, time),
    (i, .recordFailure time, time)]

/-- One after the other: the sixth is refused. -/
def sixInTurn : List (Nat × RequestAction × SystemTime) :=
  (List.range 5).flatMap (fun i => guess i i) ++ [(5, .rateCheck remote "user" "pw" 5, 5)]

theorem login_throttled_in_turn :
    ∃ c, (timedRequests plainHash).system.ReachVia
        (fun c act => leavesRoom c.shared act.2.1 = true) c ∧
      c.shared.events.length = 5 ∧ (c.threads 5).phase = .idle ∧
      GuessesBounded remote c.shared.events := by
  have hrun : ((timedRequests plainHash).system.runVia
      (fun c act => leavesRoom c.shared act.2.1 = true)
      ((timedRequests plainHash).start throttledServer) sixInTurn).isSome := by
    decide +kernel
  have hevents : (((timedRequests plainHash).system.runVia
      (fun c act => leavesRoom c.shared act.2.1 = true)
      ((timedRequests plainHash).start throttledServer) sixInTurn).get
        hrun).shared.events.length = 5 := by
    decide +kernel +revert
  have hphase : ((((timedRequests plainHash).system.runVia
      (fun c act => leavesRoom c.shared act.2.1 = true)
      ((timedRequests plainHash).start throttledServer) sixInTurn).get
        hrun).threads 5).phase = .idle := by
    decide +kernel +revert
  have hreach := System.reachVia_get
    ((timedRequests plainHash).system_init throttledServer_init) hrun
  exact ⟨_, hreach, hevents, hphase, login_throttled hreach remote⟩

/-- All of them pass the check before one is verified. -/
def sixAtOnce : List (Nat × RequestAction × SystemTime) :=
  (List.range 6).map (fun i => (i, .rateCheck remote "user" "wrong" 0, 0)) ++
    (List.range 6).map fun i => (i, .verifyCredentials, 0)

theorem six_guesses_at_once :
    ∃ c, (timedRequests plainHash).system.Reachable c ∧
      c.shared.events = List.replicate 6 (.verified remote 0 false) ∧
      ¬ GuessesBounded remote c.shared.events := by
  have hrun : ((timedRequests plainHash).system.run
      ((timedRequests plainHash).start throttledServer) sixAtOnce).isSome := by
    decide +kernel
  have hevents : (((timedRequests plainHash).system.run
      ((timedRequests plainHash).start throttledServer) sixAtOnce).get
        hrun).shared.events = List.replicate 6 (.verified remote 0 false) := by
    decide +kernel +revert
  refine ⟨_, System.reachable_get
    ((timedRequests plainHash).system_init throttledServer_init) hrun, hevents, ?_⟩
  rw [hevents]
  intro hbounded
  have hsix := hbounded.window _ 0 (List.infix_refl _) (by decide)
  exact absurd hsix (by decide +kernel)

end HerdrWebui.Server
