import HerdrWebui.Terminal.Attach

/-!
Who hears of the exit. `subscribe` tests the exited flag and pushes under the lock
afterwards; `notify_exited` sets the flag and sends its notices under the lock
afterwards. The system is the one of attaching clients.

A subscriber that took the notice stays in the list, one that was shed for its
backlog is not told, and one pushed after the notices were sent is out of reach.
-/

namespace HerdrWebui.Terminal

open Concurrency

/-- The notices of the exit sent to a client. -/
def Channel.exitNotices (channel : Channel) : Nat := channel.sent.count .exited

/-- The client was dropped for its backlog. -/
def Channel.shed (channel : Channel) : Bool := .overflow ∈ channel.sent

/-- No subscriber is pushed after `notify_exited` has sent its notices. -/
def pushesBeforeNotices (s : TerminalState) : TerminalAction → Bool
  | .subscribe _ => s.reader ≠ .ended
  | _ => true

namespace Channel

variable {channel channel' : Channel}

/-- No notice was sent, neither of the exit nor of a shed. -/
def Silent (channel : Channel) : Prop :=
  channel.exitNotices = 0 ∧ channel.shed = false

/-- The client will not be told: it was shed, or its writer is gone. -/
def Lost (channel : Channel) : Prop :=
  channel.exitNotices = 0 ∧ (channel.shed = true ∨ channel.connected = false)

theorem Silent.deliver (h : channel.Silent) (bytes : Bytes) :
    ((channel.deliver bytes).2 = true → (channel.deliver bytes).1.Silent) ∧
      ((channel.deliver bytes).2 = false → (channel.deliver bytes).1.Lost) := by
  obtain ⟨hexit, hshed⟩ := h
  simp only [exitNotices] at hexit
  simp only [shed, decide_eq_false_iff_not] at hshed
  cases hconnected : channel.connected with
  | false =>
    simp [Channel.deliver, send, charge, discharge, hconnected, Lost, exitNotices, hexit]
  | true =>
    simp only [Channel.deliver, send, charge, hconnected, if_true]
    split
    · simp [Lost, exitNotices, shed, List.count_append, hexit]
    · simp [Silent, exitNotices, shed, List.count_append, hexit, hshed]

theorem Silent.sendExited (h : channel.Silent) :
    ((channel.send .exited).2 = true → (channel.send .exited).1.exitNotices = 1) ∧
      ((channel.send .exited).2 = false → (channel.send .exited).1.Lost) := by
  obtain ⟨hexit, hshed⟩ := h
  simp only [exitNotices] at hexit
  cases hconnected : channel.connected with
  | false => simp [send, hconnected, Lost, exitNotices, hexit]
  | true => simp [send, hconnected, exitNotices, List.count_append, hexit]

theorem queueReplay_silent (history : Bytes) (cols rows : Nat) :
    (new.queueReplay history cols rows).Silent ∧
      (new.queueReplay history cols rows).connected = true := by
  simp [queueReplay, new, charge, send, Silent, exitNotices, shed]

/-- What the writer thread leaves alone: the messages sent. It may go away. -/
def Drains (channel channel' : Channel) : Prop :=
  channel'.sent = channel.sent ∧
    (channel'.connected = channel.connected ∨ channel'.connected = false)

theorem drains_take (h : channel.take = some channel') : channel.Drains channel' := by
  unfold take at h
  split at h
  · split at h
    · obtain rfl := Option.some.inj h
      exact ⟨rfl, .inl rfl⟩
    · cases h
  · cases h

theorem drains_written {accepted : Bool} (h : channel.written accepted = some channel') :
    channel.Drains channel' := by
  obtain ⟨message, _, rfl⟩ := Option.map_eq_some_iff.mp h
  dsimp only
  split
  · exact ⟨rfl, .inl rfl⟩
  · exact ⟨rfl, .inl rfl⟩
  · exact ⟨rfl, .inr rfl⟩

theorem Drains.exitNotices (h : channel.Drains channel') :
    channel'.exitNotices = channel.exitNotices := by
  rw [Channel.exitNotices, Channel.exitNotices, h.1]

theorem Drains.silent (h : channel.Drains channel') (hsilent : channel.Silent) :
    channel'.Silent := by
  rwa [Silent, h.exitNotices, shed, h.1]

theorem Drains.lost (h : channel.Drains channel') (hlost : channel.Lost) :
    channel'.Lost := by
  refine ⟨h.exitNotices.trans hlost.1, ?_⟩
  rcases hlost.2 with hshed | hgone
  · left
    rwa [shed, h.1]
  · right
    rcases h.2 with hsame | hdown
    · exact hsame.trans hgone
    · exact hdown

end Channel

structure ExitInvariant (s : TerminalState) : Prop where
  nodup : s.subscribers.Nodup
  registered : ∀ k ∈ s.subscribers, s.connections k = .attached
  fresh : ∀ k, s.connections k = .waiting ∨ (∃ history n,
    s.connections k = .snapshotTaken history n) → s.channels k = .new
  quiet : ∀ k, s.connections k ≠ .attached →
    (s.channels k).Silent ∧ (s.channels k).connected = true
  subscribed : s.reader ≠ .ended → ∀ k ∈ s.subscribers, (s.channels k).Silent
  told : s.reader = .ended → ∀ k ∈ s.subscribers, (s.channels k).exitNotices = 1
  others : ∀ k, s.connections k = .attached → k ∉ s.subscribers →
    (s.channels k).exitNotices = 1 ∨ (s.channels k).Lost

namespace ExitInvariant

variable {s : TerminalState}

theorem start : ExitInvariant .start where
  nodup := List.nodup_nil
  registered k h := by cases h
  fresh k _ := rfl
  quiet k _ := ⟨⟨rfl, rfl⟩, rfl⟩
  subscribed _ k h := by cases h
  told _ k h := by cases h
  others k h := by cases h

theorem readerMoves (h : ExitInvariant s) (hfrom : s.reader ≠ .ended)
    {s' : TerminalState} (hsubscribers : s'.subscribers = s.subscribers)
    (hchannels : s'.channels = s.channels) (hconnections : s'.connections = s.connections)
    (hto : s'.reader ≠ .ended) : ExitInvariant s' where
  nodup := by
    rw [hsubscribers]
    exact h.nodup
  registered := by
    rw [hsubscribers, hconnections]
    exact h.registered
  fresh := by
    rw [hconnections, hchannels]
    exact h.fresh
  quiet := by
    rw [hconnections, hchannels]
    exact h.quiet
  subscribed _ := by
    rw [hsubscribers, hchannels]
    exact h.subscribed hfrom
  told hended := absurd hended hto
  others := by
    rw [hconnections, hsubscribers, hchannels]
    exact h.others

theorem visit (h : ExitInvariant s) (hfrom : s.reader ≠ .ended)
    {visit : Channel → Channel × Bool} {reader : ReaderPhase} (fannedOut : Nat)
    (hkept : ∀ channel, channel.Silent → (visit channel).2 = true →
      if reader = .ended then (visit channel).1.exitNotices = 1
      else (visit channel).1.Silent)
    (hdropped : ∀ channel, channel.Silent → (visit channel).2 = false →
      (visit channel).1.Lost) :
    ExitInvariant { s.visitSubscribers visit with
      reader := reader, fannedOut := fannedOut } := by
  have hsub := (retainSubscribers_sublist visit s.channels s.subscribers).subset
  have hout {k : Nat} (hk : s.connections k ≠ .attached) :
      (s.visitSubscribers visit).channels k = s.channels k :=
    retainSubscribers_of_notMem visit s.channels fun hmem => hk (h.registered k hmem)
  have hstays {k : Nat} (hk : k ∈ (s.visitSubscribers visit).subscribers) :
      if reader = .ended then ((s.visitSubscribers visit).channels k).exitNotices = 1
      else ((s.visitSubscribers visit).channels k).Silent := by
    obtain ⟨hstay, hchannel⟩ := retainSubscribers_of_mem visit s.channels h.nodup hk
    have hvisited := hkept _ (h.subscribed hfrom k (hsub hk)) hstay
    rwa [← hchannel] at hvisited
  constructor
  case nodup =>
    exact (retainSubscribers_sublist visit s.channels s.subscribers).nodup h.nodup
  case registered => exact fun k hk => h.registered k (hsub hk)
  case fresh =>
    intro k hk
    refine (hout ?_).trans (h.fresh k hk)
    intro hattached
    rcases hk with hk | ⟨history, n, hk⟩ <;>
      exact absurd (hattached.symm.trans hk) (by simp)
  case quiet =>
    intro k hk
    have hsame := hout hk
    change ((s.visitSubscribers visit).channels k).Silent ∧
      ((s.visitSubscribers visit).channels k).connected = true
    rw [hsame]
    exact h.quiet k hk
  case subscribed =>
    intro hrunning k hk
    have hafter := hstays hk
    rwa [if_neg hrunning] at hafter
  case told =>
    intro hended k hk
    have hafter := hstays hk
    rwa [if_pos hended] at hafter
  case others =>
    intro k hattached hk
    by_cases hmem : k ∈ s.subscribers
    · obtain ⟨hchannel, hstay⟩ :=
        retainSubscribers_visits visit s.channels h.nodup hmem
      have hleft : (visit (s.channels k)).2 = false :=
        Bool.eq_false_iff.mpr fun hstayed => hk (hstay.mpr hstayed)
      right
      change ((retainSubscribers visit s.channels s.subscribers).1 k).Lost
      rw [hchannel]
      exact hdropped _ (h.subscribed hfrom k hmem) hleft
    · have hsame : (s.visitSubscribers visit).channels k = s.channels k :=
        retainSubscribers_of_notMem visit s.channels hmem
      change ((s.visitSubscribers visit).channels k).exitNotices = 1 ∨
        ((s.visitSubscribers visit).channels k).Lost
      rw [hsame]
      exact h.others k hattached hmem

theorem connect (h : ExitInvariant s) {k : Nat} (hk : s.connections k ≠ .attached)
    {channel : Channel} {phase : ConnectionPhase}
    (hfresh : phase = .waiting ∨ (∃ history n, phase = .snapshotTaken history n) →
      channel = .new)
    (hquiet : phase ≠ .attached → channel.Silent ∧ channel.connected = true)
    (hattached : phase = .attached → channel.exitNotices = 1) :
    ExitInvariant ((s.setChannel k channel).setConnection k phase) := by
  have hout : k ∉ s.subscribers := fun hmem => hk (h.registered k hmem)
  have hne {j : Nat} (hj : j ∈ s.subscribers) : j ≠ k := fun heq => hout (heq ▸ hj)
  constructor
  case nodup => exact h.nodup
  case registered =>
    intro j hj
    exact (Function.update_of_ne (hne hj) phase s.connections).trans (h.registered j hj)
  case fresh =>
    intro j hj
    rcases eq_or_ne j k with rfl | hj'
    · simp only [TerminalState.setConnection, TerminalState.setChannel,
        Function.update_self] at hj ⊢
      exact hfresh hj
    · simp only [TerminalState.setConnection, TerminalState.setChannel,
        Function.update_of_ne hj'] at hj ⊢
      exact h.fresh j hj
  case quiet =>
    intro j hj
    rcases eq_or_ne j k with rfl | hj'
    · simp only [TerminalState.setConnection, TerminalState.setChannel,
        Function.update_self] at hj ⊢
      exact hquiet hj
    · simp only [TerminalState.setConnection, TerminalState.setChannel,
        Function.update_of_ne hj'] at hj ⊢
      exact h.quiet j hj
  case subscribed =>
    intro hrunning j hj
    change (Function.update s.channels k channel j).Silent
    rw [Function.update_of_ne (hne hj)]
    exact h.subscribed hrunning j hj
  case told =>
    intro hended j hj
    change (Function.update s.channels k channel j).exitNotices = 1
    rw [Function.update_of_ne (hne hj)]
    exact h.told hended j hj
  case others =>
    intro j hj hmem
    rcases eq_or_ne j k with rfl | hj'
    · simp only [TerminalState.setConnection, TerminalState.setChannel,
        Function.update_self] at hj ⊢
      exact .inl (hattached hj)
    · simp only [TerminalState.setConnection, TerminalState.setChannel,
        Function.update_of_ne hj'] at hj ⊢
      exact h.others j hj hmem

theorem subscribe (h : ExitInvariant s) {k n : Nat} (hk : s.connections k = .subscribing n)
    (hrunning : s.reader ≠ .ended) :
    ExitInvariant { s.setConnection k .attached with
      subscribers := s.subscribers ++ [k] } := by
  have hout : k ∉ s.subscribers := fun hmem => by
    simpa [hk] using h.registered k hmem
  have hattached (j : Nat) (hj : j ≠ k) :
      (s.setConnection k .attached).connections j = s.connections j :=
    Function.update_of_ne hj _ s.connections
  constructor
  case nodup => exact h.nodup.append (List.nodup_singleton k) (by simpa using hout)
  case registered =>
    intro j hj
    rcases List.mem_append.mp hj with hold | hnew
    · exact (hattached j fun heq => hout (heq ▸ hold)).trans (h.registered j hold)
    · rw [List.mem_singleton.mp hnew]
      exact Function.update_self k .attached s.connections
  case fresh =>
    intro j hj
    rcases eq_or_ne j k with rfl | hj'
    · simp [TerminalState.setConnection] at hj
    · simp only [TerminalState.setConnection, Function.update_of_ne hj'] at hj
      exact h.fresh j hj
  case quiet =>
    intro j hj
    rcases eq_or_ne j k with rfl | hj'
    · simp [TerminalState.setConnection] at hj
    · simp only [TerminalState.setConnection, Function.update_of_ne hj'] at hj
      exact h.quiet j hj
  case subscribed =>
    intro _ j hj
    rcases List.mem_append.mp hj with hold | hnew
    · exact h.subscribed hrunning j hold
    · rw [List.mem_singleton.mp hnew]
      exact (h.quiet k (by simp [hk])).1
  case told => exact fun hended => absurd hended hrunning
  case others =>
    intro j hj hmem
    rw [List.mem_append, not_or, List.mem_singleton] at hmem
    rw [hattached j hmem.2] at hj
    exact h.others j hj hmem.1

theorem drain (h : ExitInvariant s) {k : Nat} (hk : s.connections k = .attached)
    {channel : Channel} (hdrains : (s.channels k).Drains channel) :
    ExitInvariant (s.setChannel k channel) := by
  have hother {j : Nat} (hj : j ≠ k) :
      (s.setChannel k channel).channels j = s.channels j := by
    exact Function.update_of_ne hj channel s.channels
  have hself : (s.setChannel k channel).channels k = channel := by
    exact Function.update_self k channel s.channels
  constructor
  case nodup => exact h.nodup
  case registered => exact h.registered
  case fresh =>
    intro j hj
    have hne : j ≠ k := by
      rintro rfl
      rcases hj with hj | ⟨history, n, hj⟩ <;>
        exact absurd (hk.symm.trans hj) (by simp)
    exact (hother hne).trans (h.fresh j hj)
  case quiet =>
    intro j hj
    rw [hother fun heq => hj (heq ▸ hk)]
    exact h.quiet j hj
  case subscribed =>
    intro hrunning j hj
    rcases eq_or_ne j k with rfl | hne
    · rw [hself]
      exact hdrains.silent (h.subscribed hrunning j hj)
    · rw [hother hne]
      exact h.subscribed hrunning j hj
  case told =>
    intro hended j hj
    rcases eq_or_ne j k with rfl | hne
    · rw [hself, hdrains.exitNotices]
      exact h.told hended j hj
    · rw [hother hne]
      exact h.told hended j hj
  case others =>
    intro j hj hmem
    rcases eq_or_ne j k with rfl | hne
    · rw [hself, hdrains.exitNotices]
      exact (h.others j hj hmem).imp_right hdrains.lost
    · rw [hother hne]
      exact h.others j hj hmem

theorem setConnection (h : ExitInvariant s) {k : Nat}
    (hk : s.connections k ≠ .attached) {phase : ConnectionPhase}
    (hfresh : phase = .waiting ∨ (∃ history n, phase = .snapshotTaken history n) →
      s.channels k = .new)
    (hphase : phase ≠ .attached) : ExitInvariant (s.setConnection k phase) := by
  have hconnect := h.connect hk hfresh (fun _ => h.quiet k hk)
    fun hattached => absurd hattached hphase
  rwa [TerminalState.setChannel_self] at hconnect

theorem step (h : ExitInvariant s) {a : TerminalAction}
    (hok : pushesBeforeNotices s a = true) {s' : TerminalState}
    (hstep : terminalStep s a = some s') : ExitInvariant s' := by
  cases a with
  | readChunk chunk =>
    simp only [terminalStep] at hstep
    split at hstep
    · next hcond =>
        obtain rfl := Option.some.inj hstep
        exact h.readerMoves (by simp [hcond.1]) rfl rfl rfl (by simp)
    · cases hstep
  | fanOut =>
    simp only [terminalStep] at hstep
    split at hstep
    · next chunk hextended =>
        obtain rfl := Option.some.inj hstep
        refine h.visit (by simp [hextended]) (s.fannedOut + 1) ?_ ?_
        · intro channel hsilent hstay
          exact (hsilent.deliver chunk).1 hstay
        · intro channel hsilent hleave
          exact (hsilent.deliver chunk).2 hleave
    · cases hstep
  | readerEnds =>
    simp only [terminalStep] at hstep
    split at hstep
    · next hreading =>
        obtain rfl := Option.some.inj hstep
        exact h.readerMoves (by simp [hreading]) rfl rfl rfl (by simp)
    · cases hstep
  | notifyExited =>
    simp only [terminalStep] at hstep
    split at hstep
    · next hending =>
        obtain rfl := Option.some.inj hstep
        refine h.visit (by simp [hending]) s.fannedOut ?_ ?_
        · intro channel hsilent hstay
          exact hsilent.sendExited.1 hstay
        · intro channel hsilent hleave
          exact hsilent.sendExited.2 hleave
    · cases hstep
  | takeSnapshot k =>
    simp only [terminalStep] at hstep
    split at hstep
    · next hk =>
        obtain rfl := Option.some.inj hstep
        exact h.setConnection (by simp [hk]) (fun _ => h.fresh k (.inl hk)) (by simp)
    · cases hstep
  | queueReplay k cols rows =>
    simp only [terminalStep] at hstep
    split at hstep
    · next history n hk =>
        obtain rfl := Option.some.inj hstep
        rw [h.fresh k (.inr ⟨history, n, hk⟩)]
        exact h.connect (by simp [hk]) (by simp)
          (fun _ => Channel.queueReplay_silent history cols rows) (by simp)
    · cases hstep
  | checkExited k =>
    simp only [terminalStep] at hstep
    split at hstep
    · next n hk =>
        have hquiet := h.quiet k (by simp [hk])
        split at hstep
        · obtain rfl := Option.some.inj hstep
          apply h.connect (by simp [hk]) (by simp) (by simp)
          intro _
          apply hquiet.1.sendExited.1
          simp [Channel.send, hquiet.2]
        · obtain rfl := Option.some.inj hstep
          exact h.setConnection (by simp [hk]) (by simp) (by simp)
    · cases hstep
  | subscribe k =>
    simp only [terminalStep] at hstep
    split at hstep
    · next n hk =>
        obtain rfl := Option.some.inj hstep
        exact h.subscribe hk (by simpa [pushesBeforeNotices] using hok)
    · cases hstep
  | writerTakes k =>
    simp only [terminalStep] at hstep
    split at hstep
    · next hk =>
        obtain ⟨channel, htake, rfl⟩ := Option.map_eq_some_iff.mp hstep
        exact h.drain hk (Channel.drains_take htake)
    · cases hstep
  | writerWrites k accepted =>
    simp only [terminalStep] at hstep
    split at hstep
    · next hk =>
        obtain ⟨channel, hwritten, rfl⟩ := Option.map_eq_some_iff.mp hstep
        exact h.drain hk (Channel.drains_written hwritten)
    · cases hstep

end ExitInvariant

/-- In a run that pushes no subscriber after the notices of the exit: nobody is
told twice; once `notify_exited` is over, every subscription whose client is
still connected and was not shed has been told once; and so has everybody who is
left in the list. -/
theorem exit_heardOnce {s : TerminalState}
    (h : terminal.ReachVia (fun s a => pushesBeforeNotices s a = true) s) (k : Nat) :
    (s.channels k).exitNotices ≤ 1 ∧
    (s.reader = .ended → s.connections k = .attached →
      (s.channels k).connected = true → (s.channels k).shed = false →
      (s.channels k).exitNotices = 1) ∧
    (s.reader = .ended → k ∈ s.subscribers → (s.channels k).exitNotices = 1) := by
  have hinv : ExitInvariant s := by
    refine h.invariant ?_ ?_
    · rintro _ rfl
      exact .start
    · exact fun _ _ _ _ hinv hok hstep => hinv.step hok hstep
  refine ⟨?_, ?_, fun hended hk => hinv.told hended k hk⟩
  · by_cases hattached : s.connections k = .attached
    · by_cases hk : k ∈ s.subscribers
      · by_cases hended : s.reader = .ended
        · exact (hinv.told hended k hk).le
        · exact (hinv.subscribed hended k hk).1.le.trans (Nat.zero_le 1)
      · rcases hinv.others k hattached hk with htold | hlost
        · exact htold.le
        · exact hlost.1.le.trans (Nat.zero_le 1)
    · exact (hinv.quiet k hattached).1.1.le.trans (Nat.zero_le 1)
  · intro hended hattached hconnected hshed
    by_cases hk : k ∈ s.subscribers
    · exact hinv.told hended k hk
    · rcases hinv.others k hattached hk with htold | ⟨_, hlost⟩
      · exact htold
      · rw [hshed, hconnected] at hlost
        rcases hlost with hlost | hlost <;> cases hlost

/-- The exit falls between the test of the flag and the push. -/
def exitInGap : List TerminalAction :=
  [.takeSnapshot 0, .queueReplay 0 80 24, .checkExited 0, .readerEnds, .notifyExited,
    .subscribe 0]

def exitAfterPush : List TerminalAction :=
  [.takeSnapshot 0, .queueReplay 0 80 24, .checkExited 0, .subscribe 0, .readerEnds,
    .notifyExited]

/-- The client of the first run is never told, and both are registered with a
terminal that has exited. -/
theorem exitInGap_unheard_exitAfterPush_registered :
    (∃ s, terminal.Reachable s ∧ s.exited = true ∧ s.reader = .ended ∧
      s.connections 0 = .attached ∧ (s.channels 0).connected = true ∧
      (s.channels 0).shed = false ∧ (s.channels 0).exitNotices = 0 ∧
      s.subscribers = [0]) ∧
    ∃ s, terminal.Reachable s ∧ s.exited = true ∧ s.reader = .ended ∧
      (s.channels 0).exitNotices = 1 ∧ s.subscribers = [0] := by
  have hgap : (terminal.run .start exitInGap).isSome := by decide
  have hpush : (terminal.run .start exitAfterPush).isSome := by decide
  refine ⟨⟨_, System.reachable_get rfl hgap, ?_⟩, ⟨_, System.reachable_get rfl hpush, ?_⟩⟩
  all_goals decide +revert

/-- One client subscribes before the exit and one after it. -/
def exitBetween : List TerminalAction :=
  exitAfterPush ++ [.takeSnapshot 1, .queueReplay 1 80 24, .checkExited 1]

theorem exitBetween_heardOnce :
    ∃ s, terminal.runVia (fun s a => pushesBeforeNotices s a = true) .start
        exitBetween = some s ∧
      (s.channels 0).exitNotices = 1 ∧ (s.channels 1).exitNotices = 1 := by
  have hrun : (terminal.runVia (fun s a => pushesBeforeNotices s a = true) .start
      exitBetween).isSome := by decide
  refine ⟨_, (Option.some_get hrun).symm, ?_, ?_⟩
  · exact (exit_heardOnce (System.reachVia_get rfl hrun) 0).2.2 (by decide +revert)
      (by decide +revert)
  · exact (exit_heardOnce (System.reachVia_get rfl hrun) 1).2.1 (by decide +revert)
      (by decide +revert) (by decide +revert) (by decide +revert)

end HerdrWebui.Terminal
