import HerdrWebui.Terminal.Exit

/-!
One client connection of the built-in backend (`handle_client_connection`) after
its handshake, with all the terminals of the backend behind it. The handler takes
the client's messages one after the other; its writer thread drains the channel
that the terminals the connection subscribed to send into.

A connection subscribes once, with its first attach. A later attach queues a new
replay and moves the input over.
-/

namespace HerdrWebui.Terminal

open Concurrency

/-- A terminal as one connection meets it. -/
structure TerminalSide where
  /-- The id is in the backend's registry. -/
  listed : Bool
  scrollback : Bytes
  exited : Bool
  /-- The connection's subscriber is in the terminal's list. -/
  subscribed : Bool
  reader : ReaderPhase
  size : Nat × Nat

def TerminalSide.new : TerminalSide where
  listed := false
  scrollback := []
  exited := false
  subscribed := false
  reader := .reading
  size := (24, 80)

/-- Where the handler is: at the socket, or in an `AttachTerminal`. -/
inductive HandlerPhase where
  | reading
  | attaching (terminalId : String)
  | replaying (terminalId : String) (history : Bytes)
  | checking (terminalId : String)
  | subscribing (terminalId : String)
  | spawning (terminalId : String)
  | ended
  deriving DecidableEq

structure Connection where
  cols : Nat
  rows : Nat
  terminalSize : Nat × Nat
  handler : HandlerPhase
  attached : Option String
  /-- The writer thread runs, `writer_tx` is set. -/
  writerRuns : Bool
  seq : Nat
  channel : Channel
  terminals : String → TerminalSide
  /-- The terminals the messages sent come from. -/
  origins : List String
  /-- The terminal of the last `AttachTerminal` that was accepted. -/
  accepted : Option String
  /-- The frames written since, and where their bytes come from. -/
  delivered : List (Option String × TerminalFrame)
  /-- The input written to terminals since. -/
  entered : List (String × Bytes)

def Connection.start (cols rows : Nat) : Connection where
  cols := cols
  rows := rows
  terminalSize := (cols, rows)
  handler := .reading
  attached := none
  writerRuns := false
  seq := 2
  channel := .new
  terminals _ := .new
  origins := []
  accepted := none
  delivered := []
  entered := []

inductive ConnectionAction where
  | register (u : String)
  | unregister (u : String)
  | readChunk (u : String) (chunk : Bytes)
  | fanOut (u : String)
  | readerEnds (u : String)
  | notifyExited (u : String)
  | receive (message : ClientMessage)
  | inputFails (data : Bytes)
  | disconnect
  | takeHistory
  | queueReplay
  | checkExited
  | subscribe
  | spawnWriter (cloned : Bool)
  | writerTakes
  | writerWrites (accepted : Bool)

/-- A replay is charged with its length, one byte at least, and queued. -/
def Channel.queueFrame (channel : Channel) (frame : TerminalFrame) : Channel :=
  let replayLen := max frame.bytes.length 1
  match (channel.charge replayLen).send (.replay frame replayLen) with
  | (channel, true) => channel
  | (channel, false) => channel.discharge replayLen

namespace Connection

variable (s : Connection)

def setTerminal (u : String) (terminal : TerminalSide) : Connection :=
  { s with terminals := Function.update s.terminals u terminal }

@[simp] theorem setTerminal_same (u : String) (terminal : TerminalSide) :
    (s.setTerminal u terminal).terminals u = terminal := by
  simp [setTerminal]

theorem setTerminal_other {u v : String} (hne : v ≠ u) (terminal : TerminalSide) :
    (s.setTerminal u terminal).terminals v = s.terminals v := by
  simp [setTerminal, hne]

/-- What the terminal `u` sent is in the channel. -/
def sendFrom (u : String) (channel : Channel) : Connection :=
  { s with
    channel := channel
    origins := s.origins ++
      List.replicate (channel.sent.length - s.channel.sent.length) u }

/-- The terminal the message at the writer comes from. -/
def writingFrom : Option String := s.origins[s.channel.taken - 1]?

/-- The frame the writer thread makes of a message, if it has terminal bytes. -/
def frameOf : TerminalSubscriberMessage → Option TerminalFrame
  | .output bytes => some ⟨s.seq, s.terminalSize.1, s.terminalSize.2, false, bytes⟩
  | .replay frame _ => some frame
  | .exited | .overflow => none

/-- The terminal `u` tells the connection's subscriber, if it has it in its list:
the visit says whether it stays there. -/
def visit (u : String) (visit : Channel → Channel × Bool) : Connection :=
  let terminal := s.terminals u
  if terminal.subscribed then
    let visited := visit s.channel
    (s.sendFrom u visited.1).setTerminal u { terminal with subscribed := visited.2 }
  else s

def receive : ClientMessage → Connection
  | .attachTerminal u =>
    if (s.terminals u).listed then
      { s.setTerminal u { s.terminals u with size := (s.rows, s.cols) } with
        handler := .attaching u
        accepted := some u
        delivered := []
        entered := [] }
    else { s with handler := .ended }
  | .input data =>
    match s.attached with
    | some u => { s with entered := s.entered ++ [(u, data)] }
    | none => s
  | .resize cols rows =>
    let resized := { s with terminalSize := (max cols 1, max rows 1) }
    match s.attached with
    | some u =>
      resized.setTerminal u { s.terminals u with size := (max rows 1, max cols 1) }
    | none => resized
  | .detach => { s with handler := .ended }
  | .other => s

end Connection

def connectionStep (s : Connection) : ConnectionAction → Option Connection
  | .register u => some (s.setTerminal u { s.terminals u with listed := true })
  | .unregister u => some (s.setTerminal u { s.terminals u with listed := false })
  | .readChunk u chunk =>
    let terminal := s.terminals u
    if terminal.reader = .reading ∧ chunk ≠ [] then
      some (s.setTerminal u { terminal with
        scrollback := extendScrollback terminal.scrollback chunk
        reader := .extended chunk })
    else none
  | .fanOut u =>
    match (s.terminals u).reader with
    | .extended chunk =>
      let told := s.visit u (·.deliver chunk)
      some (told.setTerminal u { told.terminals u with reader := .reading })
    | _ => none
  | .readerEnds u =>
    let terminal := s.terminals u
    if terminal.reader = .reading then
      some (s.setTerminal u { terminal with exited := true, reader := .ending })
    else none
  | .notifyExited u =>
    if (s.terminals u).reader = .ending then
      let told := s.visit u (·.send .exited)
      some (told.setTerminal u { told.terminals u with reader := .ended })
    else none
  | .receive message => if s.handler = .reading then some (s.receive message) else none
  | .inputFails data =>
    match s.handler, s.attached with
    | .reading, some u =>
      -- Part of the input may have been written.
      some { s with handler := .ended, entered := s.entered ++ [(u, data)] }
    | _, _ => none
  | .disconnect =>
    if s.handler = .reading then some { s with handler := .ended } else none
  | .takeHistory =>
    match s.handler with
    | .attaching u => some { s with handler := .replaying u (s.terminals u).scrollback }
    | _ => none
  | .queueReplay =>
    match s.handler with
    | .replaying u history =>
      if s.writerRuns then
        some { s.sendFrom u
            (s.channel.queueFrame ⟨0, s.cols, s.rows, true, history⟩) with
          handler := .reading
          attached := some u }
      else
        some { s.sendFrom u
            (s.channel.queueFrame ⟨1, s.cols, s.rows, true, history⟩) with
          handler := .checking u }
    | _ => none
  | .checkExited =>
    match s.handler with
    | .checking u =>
      if (s.terminals u).exited then
        some { s.sendFrom u (s.channel.send .exited).1 with handler := .spawning u }
      else some { s with handler := .subscribing u }
    | _ => none
  | .subscribe =>
    match s.handler with
    | .subscribing u =>
      some { s.setTerminal u { s.terminals u with subscribed := true } with
        handler := .spawning u }
    | _ => none
  | .spawnWriter cloned =>
    match s.handler with
    | .spawning u =>
      if cloned then
        some { s with handler := .reading, attached := some u, writerRuns := true }
      else
        -- The receiving half is dropped with the handler.
        some { s with
          handler := .ended
          channel := { s.channel with connected := false } }
    | _ => none
  | .writerTakes =>
    if s.writerRuns then s.channel.take.map fun channel => { s with channel := channel }
    else none
  | .writerWrites accepted =>
    if s.writerRuns then
      (s.channel.written accepted).map fun channel =>
        { s with
          channel := channel
          seq := match s.channel.writing with
            | some (.output _) => s.seq + 1
            | _ => s.seq
          delivered := s.delivered ++
            (s.channel.writing.bind s.frameOf).toList.map (s.writingFrom, ·) }
    else none

def connection (cols rows : Nat) : System Connection ConnectionAction where
  init s := s = .start cols rows
  step := connectionStep

/-- An `AttachTerminal` that is accepted while a terminal is attached names that
terminal. -/
def namesAttached (s : Connection) : ConnectionAction → Bool
  | .receive (.attachTerminal u) =>
    !(s.terminals u).listed || s.attached.all (· == u)
  | _ => true

namespace Connection

variable (s : Connection)

/-- Nothing the terminal `u` prints is withheld: the connection's subscriber is in
its list, unless it exited, the client was shed or its writer is gone. -/
def Hears (u : String) : Prop :=
  (s.terminals u).subscribed = true ∨ (s.terminals u).exited = true ∨
    s.channel.shed = true ∨ s.channel.connected = false

/-- The delivered stream, the input target and the subscription refer to the
terminal of the last accepted attach. -/
structure OneTerminal : Prop where
  delivered : ∀ d ∈ s.delivered, d.1 = s.accepted
  entered : ∀ e ∈ s.entered, some e.1 = s.accepted
  subscribed : ∀ u, (s.terminals u).subscribed = true → s.accepted = some u
  idle : s.handler = .reading → s.attached = s.accepted
  attached : ∀ u, s.attached = some u → s.accepted = some u ∧ s.Hears u

end Connection

/-- Messages were added to a channel, the writer thread did nothing. -/
structure Channel.Grew (channel channel' : Channel) : Prop where
  sent : channel.sent <+: channel'.sent
  taken : channel'.taken = channel.taken
  writing : channel'.writing = channel.writing
  connected : channel'.connected = channel.connected

namespace Channel.Grew

variable {channel channel' : Channel}

theorem trans {channel'' : Channel} (h : channel.Grew channel')
    (h' : channel'.Grew channel'') : channel.Grew channel'' where
  sent := h.sent.trans h'.sent
  taken := h'.taken.trans h.taken
  writing := h'.writing.trans h.writing
  connected := h'.connected.trans h.connected

theorem of_charge (channel : Channel) (n : Nat) : channel.Grew (channel.charge n) :=
  ⟨List.prefix_refl _, rfl, rfl, rfl⟩

theorem of_discharge (channel : Channel) (n : Nat) :
    channel.Grew (channel.discharge n) :=
  ⟨List.prefix_refl _, rfl, rfl, rfl⟩

theorem of_send (channel : Channel) (message : TerminalSubscriberMessage) :
    channel.Grew (channel.send message).1 := by
  unfold Channel.send
  split
  · exact ⟨List.prefix_append _ _, rfl, rfl, rfl⟩
  · exact ⟨List.prefix_refl _, rfl, rfl, rfl⟩

theorem of_deliver (channel : Channel) (bytes : Bytes) :
    channel.Grew (channel.deliver bytes).1 := by
  have hsend := (of_charge channel bytes.length).trans (of_send _ (.output bytes))
  unfold Channel.deliver
  split
  · next sent heq =>
      rw [heq] at hsend
      split
      · exact hsend.trans (of_send _ _)
      · exact hsend
  · next sent heq =>
      rw [heq] at hsend
      exact hsend.trans (of_discharge _ _)

theorem of_queueFrame (channel : Channel) (frame : TerminalFrame) :
    channel.Grew (channel.queueFrame frame) := by
  have hsend := (of_charge channel (max frame.bytes.length 1)).trans
    (of_send _ (.replay frame (max frame.bytes.length 1)))
  unfold Channel.queueFrame
  dsimp only
  split
  · next sent heq =>
      rw [heq] at hsend
      exact hsend
  · next sent heq =>
      rw [heq] at hsend
      exact hsend.trans (of_discharge _ _)

theorem shed (h : channel.Grew channel') (hshed : channel.shed = true) :
    channel'.shed = true := by
  simp only [Channel.shed, decide_eq_true_eq] at hshed ⊢
  exact h.sent.subset hshed

end Channel.Grew

theorem Channel.lost_of_deliver {channel : Channel} {bytes : Bytes}
    (hleave : (channel.deliver bytes).2 = false) :
    (channel.deliver bytes).1.shed = true ∨
      (channel.deliver bytes).1.connected = false := by
  cases hconnected : channel.connected with
  | false =>
    right
    rw [(Grew.of_deliver channel bytes).connected, hconnected]
  | true =>
    simp only [deliver, send, charge, hconnected, if_true] at hleave ⊢
    split at hleave
    · next hfull =>
        left
        rw [if_pos hfull]
        simp [shed]
    · cases hleave

theorem Channel.lost_of_send {channel : Channel} {message : TerminalSubscriberMessage}
    (hleave : (channel.send message).2 = false) :
    (channel.send message).1.connected = false := by
  rw [(Grew.of_send channel message).connected]
  cases hconnected : channel.connected with
  | false => rfl
  | true => simp [send, hconnected] at hleave

/-- The terminal an `AttachTerminal` under way is for. -/
def HandlerPhase.terminal : HandlerPhase → Option String
  | .attaching u | .replaying u _ | .checking u | .subscribing u | .spawning u => some u
  | .reading | .ended => none

structure ConnectionInvariant (s : Connection) : Prop extends s.OneTerminal where
  origins : ∀ u ∈ s.origins, s.accepted = some u
  tagged : s.origins.length = s.channel.sent.length
  taken : s.channel.taken ≤ s.channel.sent.length
  writing : s.channel.writing ≠ none → 0 < s.channel.taken
  handler : ∀ u, s.handler.terminal = some u → s.accepted = some u
  spawning : ∀ u, s.handler = .spawning u → s.Hears u
  running : s.writerRuns = true → ∃ u, s.attached = some u

namespace ConnectionInvariant

variable {s : Connection}

theorem start (cols rows : Nat) : ConnectionInvariant (.start cols rows) where
  delivered d hd := by cases hd
  entered e he := by cases he
  subscribed u hu := by cases hu
  idle _ := rfl
  attached u hu := by cases hu
  origins u hu := by cases hu
  tagged := rfl
  taken := le_rfl
  writing h := absurd rfl h
  handler u hu := by cases hu
  spawning u hu := by cases hu
  running h := by cases h

theorem setTerminal (h : ConnectionInvariant s) (u : String) {terminal : TerminalSide}
    (hsubscribed : terminal.subscribed = true → s.accepted = some u)
    (hhears : s.Hears u → (s.setTerminal u terminal).Hears u) :
    ConnectionInvariant (s.setTerminal u terminal) := by
  have hkeeps (v : String) (hv : s.Hears v) : (s.setTerminal u terminal).Hears v := by
    rcases eq_or_ne v u with rfl | hne
    · exact hhears hv
    · unfold Connection.Hears
      rw [Connection.setTerminal_other s hne]
      exact hv
  refine { h with subscribed := ?_, attached := ?_, spawning := ?_ }
  · intro v hv
    rcases eq_or_ne v u with rfl | hne
    · rw [Connection.setTerminal_same] at hv
      exact hsubscribed hv
    · rw [Connection.setTerminal_other s hne] at hv
      exact h.subscribed v hv
  · intro v hv
    obtain ⟨haccepted, hheard⟩ := h.attached v hv
    exact ⟨haccepted, hkeeps v hheard⟩
  · intro v hv
    exact hkeeps v (h.spawning v hv)

theorem setTerminal_keeping (h : ConnectionInvariant s) (u : String)
    {terminal : TerminalSide}
    (hsubscribed : terminal.subscribed = (s.terminals u).subscribed)
    (hexited : (s.terminals u).exited = true → terminal.exited = true) :
    ConnectionInvariant (s.setTerminal u terminal) := by
  refine h.setTerminal u ?_ ?_
  · intro hsub
    rw [hsubscribed] at hsub
    exact h.subscribed u hsub
  · intro hheard
    unfold Connection.Hears
    rw [Connection.setTerminal_same, hsubscribed]
    exact hheard.imp_right (Or.imp_left hexited)

theorem sendFrom (h : ConnectionInvariant s) {u : String} (haccepted : s.accepted = some u)
    {channel : Channel} (hgrew : s.channel.Grew channel) :
    ConnectionInvariant (s.sendFrom u channel) := by
  have hlength := hgrew.sent.length_le
  have hkeeps (v : String) (hv : s.Hears v) : (s.sendFrom u channel).Hears v := by
    rcases hv with hsub | hexited | hshed | hdown
    · exact .inl hsub
    · exact .inr (.inl hexited)
    · exact .inr (.inr (.inl (hgrew.shed hshed)))
    · exact .inr (.inr (.inr (hgrew.connected.trans hdown)))
  constructor
  case toOneTerminal =>
    refine { h.toOneTerminal with attached := ?_ }
    intro v hv
    obtain ⟨hsome, hheard⟩ := h.attached v hv
    exact ⟨hsome, hkeeps v hheard⟩
  case origins =>
    intro v hv
    rcases List.mem_append.mp hv with hold | hnew
    · exact h.origins v hold
    · rw [List.eq_of_mem_replicate hnew]
      exact haccepted
  case tagged =>
    have htagged := h.tagged
    simp only [Connection.sendFrom, List.length_append, List.length_replicate]
    omega
  case taken =>
    simp only [Connection.sendFrom]
    rw [hgrew.taken]
    exact h.taken.trans hlength
  case writing =>
    simp only [Connection.sendFrom]
    rw [hgrew.writing, hgrew.taken]
    exact h.writing
  case handler => exact h.handler
  case spawning =>
    intro v hv
    exact hkeeps v (h.spawning v hv)
  case running => exact h.running

theorem visit (h : ConnectionInvariant s) (u : String) {visit : Channel → Channel × Bool}
    (hgrew : ∀ channel, Channel.Grew channel (visit channel).1)
    (hleave : ∀ channel, (visit channel).2 = false →
      (visit channel).1.shed = true ∨ (visit channel).1.connected = false) :
    ConnectionInvariant (s.visit u visit) := by
  unfold Connection.visit
  dsimp only
  split
  · next hsub =>
      have haccepted := h.subscribed u hsub
      refine (h.sendFrom haccepted (hgrew s.channel)).setTerminal u ?_ ?_
      · exact fun _ => haccepted
      · intro _
        unfold Connection.Hears
        rw [Connection.setTerminal_same]
        cases hstays : (visit s.channel).2 with
        | true => exact .inl rfl
        | false => exact .inr (.inr (hleave s.channel hstays))
  · exact h

theorem readerMoves (h : ConnectionInvariant s) (u : String) (reader : ReaderPhase) :
    ConnectionInvariant (s.setTerminal u { s.terminals u with reader := reader }) :=
  h.setTerminal_keeping u rfl id

theorem handlerMoves (h : ConnectionInvariant s) {phase : HandlerPhase}
    (hreading : phase ≠ .reading)
    (hterminal : ∀ u, phase.terminal = some u → s.accepted = some u)
    (hspawning : ∀ u, phase = .spawning u → s.Hears u) :
    ConnectionInvariant { s with handler := phase } :=
  { h with
    idle := fun hidle => absurd hidle hreading
    handler := hterminal
    spawning := hspawning }

theorem attachGoesOn (h : ConnectionInvariant s) {u : String} (haccepted : s.accepted = some u)
    {phase : HandlerPhase} (hphase : phase.terminal = some u)
    (hspawning : ∀ v, phase = .spawning v → s.Hears v) :
    ConnectionInvariant { s with handler := phase } := by
  refine h.handlerMoves ?_ ?_ hspawning
  · rintro rfl
    cases hphase
  · intro v hv
    rw [haccepted, ← hphase, hv]

theorem attachEnds (h : ConnectionInvariant s) {u : String} (haccepted : s.accepted = some u)
    (hhears : s.Hears u) (runs : Bool) :
    ConnectionInvariant { s with
      handler := .reading, attached := some u, writerRuns := runs } := by
  refine { h with
    idle := ?_, attached := ?_, handler := nofun, spawning := nofun, running := ?_ }
  · exact fun _ => haccepted.symm
  · intro v hv
    obtain rfl := Option.some.inj hv
    exact ⟨haccepted, hhears⟩
  · exact fun _ => ⟨u, rfl⟩

/-- An attach is accepted for the terminal everything refers to already, or as the
first one. -/
theorem accept (h : ConnectionInvariant s) (hreading : s.handler = .reading) {u : String}
    (hnames : s.attached.all (· == u) = true) :
    ConnectionInvariant { s with
      handler := .attaching u, accepted := some u, delivered := [], entered := [] } := by
  have hsame (v : String) (hv : s.accepted = some v) : some u = some v := by
    rw [← h.idle hreading] at hv
    rw [hv] at hnames
    have hnamed : v = u := by simpa using hnames
    rw [hnamed]
  constructor
  case toOneTerminal =>
    refine ⟨nofun, nofun, ?_, nofun, ?_⟩
    · exact fun v hv => hsame v (h.subscribed v hv)
    · intro v hv
      obtain ⟨haccepted, hheard⟩ := h.attached v hv
      exact ⟨hsame v haccepted, hheard⟩
  case origins => exact fun v hv => hsame v (h.origins v hv)
  case tagged => exact h.tagged
  case taken => exact h.taken
  case writing => exact h.writing
  case handler => exact fun _ => id
  case spawning => nofun
  case running => exact h.running

theorem writerMoves (h : ConnectionInvariant s) {channel : Channel}
    (hdrains : s.channel.Drains channel) (htaken : channel.taken ≤ channel.sent.length)
    (hwriting : channel.writing ≠ none → 0 < channel.taken) :
    ConnectionInvariant { s with channel := channel } := by
  obtain ⟨hsent, hgone⟩ := hdrains
  have hkeeps (v : String) (hv : s.Hears v) :
      Connection.Hears { s with channel := channel } v := by
    rcases hv with hsub | hexited | hshed | hdown
    · exact .inl hsub
    · exact .inr (.inl hexited)
    · refine .inr (.inr (.inl ?_))
      unfold Channel.shed at hshed ⊢
      rwa [hsent]
    · exact .inr (.inr (.inr (hgone.elim (·.trans hdown) id)))
  constructor
  case toOneTerminal =>
    refine { h.toOneTerminal with attached := ?_ }
    intro v hv
    obtain ⟨haccepted, hheard⟩ := h.attached v hv
    exact ⟨haccepted, hkeeps v hheard⟩
  case origins => exact h.origins
  case tagged =>
    change s.origins.length = channel.sent.length
    rw [hsent]
    exact h.tagged
  case taken => exact htaken
  case writing => exact hwriting
  case handler => exact h.handler
  case spawning => exact fun v hv => hkeeps v (h.spawning v hv)
  case running => exact h.running

theorem writingFrom_eq (h : ConnectionInvariant s) (hwriting : s.channel.writing ≠ none) :
    s.writingFrom = s.accepted := by
  have hpos := h.writing hwriting
  have htaken := h.taken
  have htagged := h.tagged
  have hlt : s.channel.taken - 1 < s.origins.length := by omega
  unfold Connection.writingFrom
  rw [List.getElem?_eq_getElem hlt]
  exact (h.origins _ (List.getElem_mem hlt)).symm

theorem writerTakes (h : ConnectionInvariant s) {channel : Channel}
    (htake : s.channel.take = some channel) :
    ConnectionInvariant { s with channel := channel } := by
  have hdrains := Channel.drains_take htake
  unfold Channel.take at htake
  split at htake
  · next message _ hnext =>
      split at htake
      · obtain rfl := Option.some.inj htake
        refine h.writerMoves hdrains ?_ ?_
        · exact (List.getElem?_eq_some_iff.mp hnext).1
        · exact fun _ => Nat.succ_pos _
      · cases htake
  · cases htake

theorem writerWrites (h : ConnectionInvariant s) {accepted : Bool} {channel : Channel}
    (hwritten : s.channel.written accepted = some channel) (seq : Nat) :
    ConnectionInvariant { s with
      channel := channel
      seq := seq
      delivered := s.delivered ++
        (s.channel.writing.bind s.frameOf).toList.map (s.writingFrom, ·) } := by
  have hdrains := Channel.drains_written hwritten
  obtain ⟨message, hmessage, hresult⟩ := Option.map_eq_some_iff.mp hwritten
  have hwriting : s.channel.writing ≠ none := by
    rw [hmessage]
    exact Option.some_ne_none message
  have hrest : channel.taken = s.channel.taken ∧ channel.writing = none := by
    rw [← hresult]
    split <;> exact ⟨rfl, rfl⟩
  have hmoved := h.writerMoves hdrains
    (by
      rw [hrest.1, hdrains.1]
      exact h.taken)
    (fun hnone => absurd hrest.2 hnone)
  refine { hmoved with delivered := ?_ }
  intro d hd
  rcases List.mem_append.mp hd with hold | hnew
  · exact h.delivered d hold
  · obtain ⟨frame, _, rfl⟩ := List.mem_map.mp hnew
    exact h.writingFrom_eq hwriting

theorem enters (h : ConnectionInvariant s) {u : String} (hattached : s.attached = some u)
    (data : Bytes) :
    ConnectionInvariant { s with entered := s.entered ++ [(u, data)] } := by
  refine { h with entered := ?_ }
  intro e he
  rcases List.mem_append.mp he with hold | hnew
  · exact h.entered e hold
  · obtain rfl := List.mem_singleton.mp hnew
    exact (h.attached u hattached).1.symm

theorem receive (h : ConnectionInvariant s) (hreading : s.handler = .reading)
    {message : ClientMessage} (hnames : namesAttached s (.receive message) = true) :
    ConnectionInvariant (s.receive message) := by
  cases message with
  | attachTerminal u =>
    simp only [Connection.receive]
    split
    · next hlisted =>
        have hresized : ConnectionInvariant
            (s.setTerminal u { s.terminals u with size := (s.rows, s.cols) }) :=
          h.setTerminal_keeping u rfl id
        have hnamed : s.attached.all (· == u) = true := by
          simpa [namesAttached, hlisted] using hnames
        exact hresized.accept hreading hnamed
    · exact h.handlerMoves nofun nofun nofun
  | input data =>
    simp only [Connection.receive]
    split
    · next u hattached => exact h.enters hattached data
    · exact h
  | resize cols rows =>
    have hsized : ConnectionInvariant
        { s with terminalSize := (max cols 1, max rows 1) } := { h with }
    simp only [Connection.receive]
    split
    · exact hsized.setTerminal_keeping _ rfl id
    · exact hsized
  | detach => exact h.handlerMoves nofun nofun nofun
  | other => exact h

theorem queueReplay (h : ConnectionInvariant s) {u : String} (haccepted : s.accepted = some u)
    (hruns : s.writerRuns = true) (frame : TerminalFrame) :
    ConnectionInvariant { s.sendFrom u (s.channel.queueFrame frame) with
      handler := .reading, attached := some u } := by
  have hsent := h.sendFrom haccepted (.of_queueFrame s.channel frame)
  obtain ⟨v, hattached⟩ := h.running hruns
  obtain ⟨hsome, hhears⟩ := hsent.attached v hattached
  obtain rfl := Option.some.inj (hsome.symm.trans haccepted)
  exact hsent.attachEnds haccepted hhears s.writerRuns

theorem subscribe (h : ConnectionInvariant s) {u : String} (haccepted : s.accepted = some u) :
    ConnectionInvariant { s.setTerminal u { s.terminals u with subscribed := true } with
      handler := .spawning u } := by
  have hhears : (s.setTerminal u { s.terminals u with subscribed := true }).Hears u := by
    left
    rw [Connection.setTerminal_same]
  refine (h.setTerminal u (fun _ => haccepted) fun _ => hhears).attachGoesOn haccepted rfl ?_
  rintro v ⟨⟩
  exact hhears

/-- The writer thread could not be spawned: the channel goes with the handler. -/
theorem spawnFails (h : ConnectionInvariant s) :
    ConnectionInvariant { s with
      handler := .ended, channel := { s.channel with connected := false } } := by
  have hdrains : s.channel.Drains { s.channel with connected := false } := ⟨rfl, .inr rfl⟩
  exact (h.writerMoves hdrains h.taken h.writing).handlerMoves nofun nofun nofun

theorem step (h : ConnectionInvariant s) {a : ConnectionAction} {s' : Connection}
    (hnames : namesAttached s a = true) (hstep : connectionStep s a = some s') :
    ConnectionInvariant s' := by
  cases a with
  | register u | unregister u =>
    obtain rfl := Option.some.inj hstep
    exact h.setTerminal_keeping u rfl id
  | readChunk u chunk =>
    simp only [connectionStep] at hstep
    split at hstep
    · obtain rfl := Option.some.inj hstep
      exact h.setTerminal_keeping u rfl id
    · cases hstep
  | fanOut u =>
    simp only [connectionStep] at hstep
    split at hstep
    · next chunk _ =>
        obtain rfl := Option.some.inj hstep
        refine (h.visit u ?_ ?_).readerMoves u .reading
        · exact fun channel => .of_deliver channel chunk
        · exact fun channel hleave => Channel.lost_of_deliver hleave
    · cases hstep
  | readerEnds u =>
    simp only [connectionStep] at hstep
    split at hstep
    · obtain rfl := Option.some.inj hstep
      exact h.setTerminal_keeping u rfl fun _ => rfl
    · cases hstep
  | notifyExited u =>
    simp only [connectionStep] at hstep
    split at hstep
    · obtain rfl := Option.some.inj hstep
      refine (h.visit u ?_ ?_).readerMoves u .ended
      · exact fun channel => .of_send channel .exited
      · exact fun channel hleave => .inr (Channel.lost_of_send hleave)
    · cases hstep
  | receive message =>
    simp only [connectionStep] at hstep
    split at hstep
    · next hreading =>
        obtain rfl := Option.some.inj hstep
        exact h.receive hreading hnames
    · cases hstep
  | inputFails data =>
    simp only [connectionStep] at hstep
    split at hstep
    · next u _ hattached =>
        obtain rfl := Option.some.inj hstep
        exact (h.enters hattached data).handlerMoves nofun nofun nofun
    · cases hstep
  | disconnect =>
    simp only [connectionStep] at hstep
    split at hstep
    · obtain rfl := Option.some.inj hstep
      exact h.handlerMoves nofun nofun nofun
    · cases hstep
  | takeHistory =>
    simp only [connectionStep] at hstep
    split at hstep
    · next u hphase =>
        obtain rfl := Option.some.inj hstep
        have haccepted := h.handler u (by rw [hphase]; rfl)
        exact h.attachGoesOn haccepted rfl nofun
    · cases hstep
  | queueReplay =>
    simp only [connectionStep] at hstep
    split at hstep
    · next u history hphase =>
        have haccepted := h.handler u (by rw [hphase]; rfl)
        split at hstep
        · next hruns =>
            obtain rfl := Option.some.inj hstep
            exact h.queueReplay haccepted hruns _
        · obtain rfl := Option.some.inj hstep
          exact (h.sendFrom haccepted (.of_queueFrame _ _)).attachGoesOn haccepted rfl nofun
    · cases hstep
  | checkExited =>
    simp only [connectionStep] at hstep
    split at hstep
    · next u hphase =>
        have haccepted := h.handler u (by rw [hphase]; rfl)
        split at hstep
        · next hexited =>
            obtain rfl := Option.some.inj hstep
            apply (h.sendFrom haccepted (.of_send _ _)).attachGoesOn haccepted rfl
            rintro v ⟨⟩
            exact .inr (.inl hexited)
        · obtain rfl := Option.some.inj hstep
          exact h.attachGoesOn haccepted rfl nofun
    · cases hstep
  | subscribe =>
    simp only [connectionStep] at hstep
    split at hstep
    · next u hphase =>
        have haccepted := h.handler u (by rw [hphase]; rfl)
        obtain rfl := Option.some.inj hstep
        exact h.subscribe haccepted
    · cases hstep
  | spawnWriter cloned =>
    simp only [connectionStep] at hstep
    split at hstep
    · next u hphase =>
        have haccepted := h.handler u (by rw [hphase]; rfl)
        split at hstep
        · obtain rfl := Option.some.inj hstep
          exact h.attachEnds haccepted (h.spawning u hphase) true
        · obtain rfl := Option.some.inj hstep
          exact h.spawnFails
    · cases hstep
  | writerTakes =>
    simp only [connectionStep] at hstep
    split at hstep
    · obtain ⟨channel, htake, rfl⟩ := Option.map_eq_some_iff.mp hstep
      exact h.writerTakes htake
    · cases hstep
  | writerWrites accepted =>
    simp only [connectionStep] at hstep
    split at hstep
    · obtain ⟨channel, hwritten, rfl⟩ := Option.map_eq_some_iff.mp hstep
      exact h.writerWrites hwritten _
    · cases hstep

end ConnectionInvariant

/-- In a run in which every attach that is accepted while a terminal is attached
names that terminal, everything on the connection refers to one terminal. -/
theorem connection_followsAttach {cols rows : Nat} {s : Connection}
    (h : (connection cols rows).ReachVia (fun s a => namesAttached s a = true) s) :
    s.OneTerminal := by
  have hinv : ConnectionInvariant s := by
    refine h.invariant ?_ ?_
    · rintro _ rfl
      exact .start cols rows
    · exact fun _ _ _ _ hinv hok hstep => hinv.step hok hstep
  exact hinv.toOneTerminal

/-- The messages of one client with the output of two terminals: it attaches to the
first and to `second`, and both terminals print. -/
def attachTwice (second : String) : List ConnectionAction :=
  [.register "a", .register "b",
    .receive (.attachTerminal "a"), .takeHistory, .queueReplay, .checkExited, .subscribe,
    .spawnWriter true, .writerTakes, .writerWrites true,
    .receive (.attachTerminal second), .takeHistory, .queueReplay,
    .writerTakes, .writerWrites true,
    .receive (.input [5]),
    .readChunk "a" [1], .fanOut "a", .readChunk "b" [2], .fanOut "b",
    .writerTakes, .writerWrites true]

theorem attachTwice_follows :
    ∃ s, (connection 80 24).runVia (fun s a => namesAttached s a = true) (.start 80 24)
        (attachTwice "a") = some s ∧
      s.delivered.map (·.2.bytes) = [[], [1]] ∧ s.entered = [("a", [5])] ∧
      s.OneTerminal := by
  have hrun : ((connection 80 24).runVia (fun s a => namesAttached s a = true)
      (.start 80 24) (attachTwice "a")).isSome := by
    decide +kernel
  refine ⟨_, (Option.some_get hrun).symm, ?_, ?_,
    connection_followsAttach (System.reachVia_get rfl hrun)⟩
  · decide +kernel +revert
  · decide +kernel +revert

/-- After the second attach its replay is all that comes from the terminal `b`: what
`a` prints is delivered, what `b` prints is not, while the input goes to `b`. -/
theorem attachElsewhere_deliversFirst :
    ∃ s, (connection 80 24).Reachable s ∧ s.handler = .reading ∧
      s.accepted = some "b" ∧ s.entered = [("b", [5])] ∧
      s.delivered.map (fun d => (d.1, d.2.bytes)) = [(some "b", []), (some "a", [1])] ∧
      (s.terminals "a").subscribed = true ∧ (s.terminals "b").subscribed = false ∧
      ¬ s.OneTerminal := by
  have hrun : ((connection 80 24).run (.start 80 24) (attachTwice "b")).isSome := by
    decide +kernel
  have hsub : ((((connection 80 24).run (.start 80 24) (attachTwice "b")).get
      hrun).terminals "a").subscribed = true := by
    decide +kernel +revert
  have haccepted : (((connection 80 24).run (.start 80 24) (attachTwice "b")).get
      hrun).accepted = some "b" := by
    decide +kernel +revert
  refine ⟨_, System.reachable_get rfl hrun, ?_, haccepted, ?_, ?_, hsub, ?_, ?_⟩
  · decide +kernel +revert
  · decide +kernel +revert
  · decide +kernel +revert
  · decide +kernel +revert
  · intro hone
    have hsame := hone.subscribed "a" hsub
    rw [haccepted] at hsame
    exact absurd hsame (by decide)

end HerdrWebui.Terminal
