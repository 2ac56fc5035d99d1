import HerdrWebui.Concurrency.System
import HerdrWebui.Data.Table
import HerdrWebui.Terminal.Paste

/-!
The requests to a language server. A call draws an id, puts the sender of its channel into
`pending` under the id, sends its frame and waits. The reader takes the sender of the id of a
response out of `pending` and sends the response through it. A call that waits too long takes its
own sender out; one whose frame is not sent leaves it there.
-/

namespace HerdrWebui.Lsp

open Concurrency Terminal

def maxLspRequestBytes : Nat := 8 * 1024 * 1024

/-- The id and value of a response. A request or a notification of the server has neither a result
nor an error. -/
def responseOf (message : Json) : Option (Nat × Json) :=
  match (message.get "id").bind asU64 with
  | some id => ((message.get "result").or (message.get "error")).map fun result => (id, result)
  | none => none

def keptMethods : List String :=
  ["textDocument/publishDiagnostics", "textDocument/publishDiagnosticsThin", "$/progress",
    "window/showMessage", "window/logMessage"]

def pushNotification (notifications : List Json) (message : Json) : List Json :=
  let notifications := notifications ++ [message]
  notifications.drop (notifications.length - 200)

inductive SendError where
  | tooLarge
  | notRunning
  | dropped
  | timedOut
  deriving DecidableEq

/-- Where a call of `send_request` stands. A call that is dropped takes no more steps. -/
inductive CallPhase where
  | drawn
  | registered
  | waiting
  | timedOut
  | returned (result : Except SendError Json)

/-- The channel of a call. A value that is handed over is with the reader, which has the sender. -/
inductive Inbox where
  | empty
  | handing (value : Json)
  | full (value : Json)

/-- `size` is the length of the body of the message. -/
structure LspCall where
  id : Nat
  size : Nat
  phase : CallPhase
  inbox : Inbox

namespace LspCall

/-- The call has put its sender into `pending` and has not returned. -/
def Open (call : LspCall) : Prop :=
  match call.phase with
  | .registered | .waiting | .timedOut => True
  | .drawn | .returned _ => False

def Returned (call : LspCall) : Prop := ∃ result, call.phase = .returned result

def Awaits (call : LspCall) : Prop := call.Open ∧ call.inbox = .empty

/-- The call has this value or has returned it. -/
def Got (call : LspCall) (value : Json) : Prop :=
  call.inbox = .handing value ∨ call.inbox = .full value ∨ call.phase = .returned (.ok value)

end LspCall

/-- The part of `LspServerHandle` that the requests use, with the ids there are for the requests of
all servers. A call is its place in `calls`; `reader` is the call that the reader hands a value to,
and `read` has the messages it has read. -/
structure LspRequests where
  next : Nat
  writer : Bool
  pending : Table Nat Nat
  notifications : List Json
  calls : List LspCall
  reader : Option Nat
  read : List Json

namespace LspRequests

variable (s : LspRequests)

def responses : List (Nat × Json) := s.read.filterMap responseOf

def setCall (i : Nat) (call : LspCall) : LspRequests := { s with calls := s.calls.set i call }

def dispatch (message : Json) : LspRequests :=
  match (message.get "id").bind asU64 with
  | some id =>
    match (message.get "result").or (message.get "error") with
    | some result =>
      match s.pending.lookup id with
      | some i =>
        { s with
          pending := s.pending.erase id
          calls := s.calls.modify i fun call => { call with inbox := .handing result }
          reader := some i }
      | none => s
    | none => s
  | none =>
    match message.getStr "method" with
    | some method =>
      if method ∈ keptMethods then
        { s with notifications := pushNotification s.notifications message }
      else s
    | none => s

end LspRequests

inductive CallAction where
  | register
  | sendFrame
  | receive
  | expire
  | removePending
  deriving DecidableEq

inductive RequestAction where
  | draw (size : Nat)
  | drawElsewhere
  | call (i : Nat) (a : CallAction)
  | writerEnds
  | read (message : Json)
  | deliver

/-- A step of one call. A receive ends with nothing when no one has the sender. -/
def callStep (s : LspRequests) (i : Nat) (call : LspCall) (a : CallAction) : Option LspRequests :=
  match a, call.phase with
  | .register, .drawn =>
    some ({ s with pending := s.pending.insert call.id i }.setCall i
      { call with phase := .registered })
  | .sendFrame, .registered =>
    some (s.setCall i { call with
      phase :=
        if maxLspRequestBytes < call.size then .returned (.error .tooLarge)
        else if s.writer then .waiting
        else .returned (.error .notRunning) })
  | .receive, .waiting =>
    match call.inbox with
    | .full value => some (s.setCall i { call with phase := .returned (.ok value) })
    | .handing _ => none
    | .empty =>
      if s.pending.lookup call.id = some i then none
      else some (s.setCall i { call with phase := .returned (.error .dropped) })
  | .expire, .waiting =>
    match call.inbox with
    | .full _ => none
    | _ => some (s.setCall i { call with phase := .timedOut })
  | .removePending, .timedOut =>
    some ({ s with pending := s.pending.erase call.id }.setCall i
      { call with phase := .returned (.error .timedOut) })
  | _, _ => none

def requestStep (s : LspRequests) : RequestAction → Option LspRequests
  | .draw size =>
    some { s with
      next := (s.next + 1) % 2 ^ 64
      calls := s.calls ++ [⟨s.next, size, .drawn, .empty⟩] }
  | .drawElsewhere => some { s with next := (s.next + 1) % 2 ^ 64 }
  | .call i a => (s.calls[i]?).bind fun call => callStep s i call a
  | .writerEnds => some { s with writer := false }
  | .read message =>
    match s.reader with
    | none => some ({ s with read := message :: s.read }.dispatch message)
    | some _ => none
  | .deliver =>
    match s.reader with
    | none => none
    | some i =>
      (s.calls[i]?).bind fun call =>
        match call.inbox with
        | .handing value =>
          some ({ s with reader := none }.setCall i { call with inbox := .full value })
        | _ => none

/-- Other servers may have drawn ids before this one starts. -/
def lspRequests : System LspRequests RequestAction where
  init s := ∃ next < 2 ^ 64, s = ⟨next, true, ∅, [], [], none, []⟩
  step := requestStep

/-- A call that has returned has no entry, a value is one of a response with the id of its call, a
response goes to the call that awaits its id if there is one and to no other, and a message of
another kind goes to none. -/
structure NoResidue (s : LspRequests) : Prop where
  returned : ∀ call ∈ s.calls, call.Returned → s.pending.lookup call.id = none
  own : ∀ call ∈ s.calls, ∀ value, call.Got value → (call.id, value) ∈ s.responses
  handed : ∀ message s' id value, requestStep s (.read message) = some s' →
    responseOf message = some (id, value) → ∀ i,
      (∃ call, s.calls[i]? = some call ∧ call.id = id ∧ call.Awaits) ↔
        s'.reader = some i ∧ ∃ call', s'.calls[i]? = some call' ∧ call'.id = id ∧
          call'.inbox = .handing value
  initiated : ∀ message s', requestStep s (.read message) = some s' → responseOf message = none →
    s'.calls = s.calls ∧ s'.pending = s.pending ∧ s'.reader = none

/-- Every frame is taken by the writer, and no id is drawn twice. -/
def framesSent (s : LspRequests) : RequestAction → Bool
  | .draw _ => !(s.calls.any (·.id == s.next))
  | .call i .sendFrame => (s.calls[i]?).all fun call => call.size ≤ maxLspRequestBytes && s.writer
  | _ => true

/-- A call has its entry as long as it awaits its response, and its value is one of its id. -/
structure CallKept (s : LspRequests) (i : Nat) (call : LspCall) : Prop where
  pending : s.pending.lookup call.id = some i ↔ call.Awaits
  own : ∀ value, call.Got value → (call.id, value) ∈ s.responses
  drawn : call.phase = .drawn → call.inbox = .empty

structure Kept (s : LspRequests) : Prop where
  ids : (s.calls.map (·.id)).Nodup
  entries : ∀ id i, s.pending.lookup id = some i → ∃ call, s.calls[i]? = some call ∧ call.id = id
  calls : ∀ i call, s.calls[i]? = some call → CallKept s i call

namespace Kept

variable {s s' : LspRequests} {i : Nat} {call call' : LspCall}

theorem index_eq (h : Kept s) {j : Nat} {other : LspCall} (hcall : s.calls[i]? = some call)
    (hother : s.calls[j]? = some other) (hid : other.id = call.id) : j = i := by
  have hlt : j < (s.calls.map (·.id)).length := by
    rw [List.length_map]
    exact (List.getElem?_eq_some_iff.mp hother).1
  refine (List.getElem?_inj hlt h.ids).mp ?_
  rw [List.getElem?_map, List.getElem?_map, hcall, hother, Option.map_some, Option.map_some, hid]

theorem entry_eq (h : Kept s) (hcall : s.calls[i]? = some call) {j : Nat}
    (hentry : s.pending.lookup call.id = some j) : j = i := by
  obtain ⟨other, hother, hid⟩ := h.entries _ _ hentry
  exact h.index_eq hcall hother hid

theorem lookup_eq_some (h : Kept s) {id : Nat} :
    s.pending.lookup id = some i ↔
      ∃ call, s.calls[i]? = some call ∧ call.id = id ∧ call.Awaits := by
  constructor
  · intro hentry
    obtain ⟨call, hcall, rfl⟩ := h.entries _ _ hentry
    exact ⟨call, hcall, rfl, (h.calls i call hcall).pending.mp hentry⟩
  · rintro ⟨call, hcall, rfl, hawaits⟩
    exact (h.calls i call hcall).pending.mpr hawaits

theorem update (h : Kept s) (hcall : s.calls[i]? = some call)
    (hcalls : s'.calls = s.calls.set i call') (hread : s'.read = s.read)
    (hpending : ∀ id, id ≠ call.id → s'.pending.lookup id = s.pending.lookup id)
    (hentry : ∀ j, s'.pending.lookup call.id = some j → j = i)
    (hid : call'.id = call.id) (hkept : CallKept s' i call') : Kept s' := by
  obtain ⟨hlt, hget⟩ := List.getElem?_eq_some_iff.mp hcall
  have hself : s'.calls[i]? = some call' := by rw [hcalls, List.getElem?_set_self hlt]
  have hother : ∀ j, j ≠ i → s'.calls[j]? = s.calls[j]? := fun j hj => by
    rw [hcalls, List.getElem?_set_ne hj.symm]
  have hresponses : s'.responses = s.responses := by rw [LspRequests.responses, hread]; rfl
  refine ⟨?_, fun id j hlookup => ?_, fun j other hj => ?_⟩
  · have hids : s'.calls.map (·.id) = s.calls.map (·.id) := by
      rw [hcalls, List.map_set, hid, ← hget]
      exact List.ext_getElem (by simp) fun n _ _ => by
        rw [List.getElem_set]
        split
        · next hn =>
            subst hn
            rw [List.getElem_map]
        · rfl
    rw [hids]
    exact h.ids
  · rcases eq_or_ne id call.id with rfl | hne
    · obtain rfl := hentry j hlookup
      exact ⟨call', hself, hid⟩
    · rw [hpending id hne] at hlookup
      obtain ⟨other, hget', rfl⟩ := h.entries _ _ hlookup
      have hj : j ≠ i := by
        rintro rfl
        rw [hcall] at hget'
        exact hne (congrArg LspCall.id (Option.some.inj hget').symm)
      exact ⟨other, (hother j hj).trans hget', rfl⟩
  · rcases eq_or_ne j i with rfl | hj'
    · obtain rfl := Option.some.inj (hself.symm.trans hj)
      exact hkept
    · rw [hother j hj'] at hj
      have hne : other.id ≠ call.id := fun hsame => hj' (h.index_eq hcall hj hsame)
      obtain ⟨hp, hown, hdrawn⟩ := h.calls j other hj
      exact ⟨by rw [hpending _ hne, hp], by rwa [hresponses], hdrawn⟩

theorem setCall (h : Kept s) (hcall : s.calls[i]? = some call) {reader : Option Nat}
    (hid : call'.id = call.id) (hawaits : call'.Awaits ↔ call.Awaits)
    (hown : ∀ value, call'.Got value → call.Got value)
    (hdrawn : call'.phase = .drawn → call'.inbox = .empty) :
    Kept ({ s with reader := reader }.setCall i call') := by
  have hkept := h.calls i call hcall
  refine h.update hcall rfl rfl (fun _ _ => rfl) (fun j => h.entry_eq hcall) hid ⟨?_, ?_, hdrawn⟩
  · rw [hid, hawaits]
    exact hkept.pending
  · intro value hvalue
    rw [hid]
    exact hkept.own value (hown value hvalue)

theorem drawn (h : Kept s) {size : Nat} (hok : framesSent s (.draw size) = true) :
    Kept { s with
      next := (s.next + 1) % 2 ^ 64
      calls := s.calls ++ [⟨s.next, size, .drawn, .empty⟩] } := by
  have hfresh : ∀ call ∈ s.calls, call.id ≠ s.next := by simpa [framesSent] using hok
  have hnone : s.pending.lookup s.next = none := by
    rw [Option.eq_none_iff_forall_not_mem]
    intro j hj
    obtain ⟨call, hcall, hid⟩ := h.entries _ _ hj
    exact hfresh call (List.mem_of_getElem? hcall) hid
  refine ⟨?_, fun id j hlookup => ?_, fun j call hj => ?_⟩
  · rw [List.map_append, List.map_singleton, ← List.concat_eq_append]
    refine h.ids.concat ?_
    rw [List.mem_map]
    rintro ⟨call, hcall, hid⟩
    exact hfresh call hcall hid
  · obtain ⟨call, hcall, hid⟩ := h.entries id j hlookup
    refine ⟨call, ?_, hid⟩
    rw [List.getElem?_append_left (List.getElem?_eq_some_iff.mp hcall).1]
    exact hcall
  · rw [List.getElem?_append] at hj
    split at hj
    · obtain ⟨hp, hown, hdrawn⟩ := h.calls j call hj
      exact ⟨hp, hown, hdrawn⟩
    · obtain rfl : _ = call := List.mem_singleton.mp (List.mem_of_getElem? hj) |>.symm
      refine ⟨⟨fun hentry => ?_, fun hawaits => hawaits.1.elim⟩, ?_, fun _ => rfl⟩
      · rw [hnone] at hentry
        cases hentry
      · rintro value (hgot | hgot | hgot) <;> cases hgot

theorem registered (h : Kept s) (hcall : s.calls[i]? = some call) (hphase : call.phase = .drawn) :
    Kept ({ s with pending := s.pending.insert call.id i }.setCall i
      { call with phase := .registered }) := by
  have hempty := (h.calls i call hcall).drawn hphase
  refine h.update hcall rfl rfl (fun id hid => ?_) (fun j hj => ?_) rfl ⟨?_, ?_, nofun⟩
  · simp [LspRequests.setCall, hid]
  · simpa [LspRequests.setCall, eq_comm] using hj
  · simp [LspRequests.setCall, LspCall.Awaits, LspCall.Open, hempty]
  · rintro value (hgot | hgot | hgot)
    · exact (h.calls i call hcall).own value (.inl hgot)
    · exact (h.calls i call hcall).own value (.inr (.inl hgot))
    · cases hgot

theorem removed (h : Kept s) (hcall : s.calls[i]? = some call) :
    Kept ({ s with pending := s.pending.erase call.id }.setCall i
      { call with phase := .returned (.error .timedOut) }) := by
  refine h.update hcall rfl rfl (fun id hid => ?_) (fun j hj => ?_) rfl ⟨?_, ?_, nofun⟩
  · simp [LspRequests.setCall, hid]
  · simp [LspRequests.setCall] at hj
  · simp [LspRequests.setCall, LspCall.Awaits, LspCall.Open]
  · rintro value (hgot | hgot | hgot)
    · exact (h.calls i call hcall).own value (.inl hgot)
    · exact (h.calls i call hcall).own value (.inr (.inl hgot))
    · cases hgot

/-- A frame that is not sent is ruled out, and so is a sender that no one has. -/
theorem callStep (h : Kept s) (hcall : s.calls[i]? = some call) {a : CallAction}
    (hok : framesSent s (.call i a) = true) (hstep : Lsp.callStep s i call a = some s') :
    Kept s' := by
  have hkept := h.calls i call hcall
  obtain ⟨id, size, phase, inbox⟩ := call
  unfold Lsp.callStep at hstep
  split at hstep
  · obtain rfl := Option.some.inj hstep
    exact h.registered hcall ‹_›
  · next hphase =>
      obtain rfl : phase = .registered := hphase
      obtain ⟨hfits, hwriter⟩ : size ≤ maxLspRequestBytes ∧ s.writer = true := by
        simpa [framesSent, hcall] using hok
      rw [if_neg (Nat.not_lt.mpr hfits), if_pos hwriter] at hstep
      obtain rfl := Option.some.inj hstep
      refine h.setCall hcall rfl Iff.rfl ?_ nofun
      rintro value (hgot | hgot | hgot)
      · exact .inl hgot
      · exact .inr (.inl hgot)
      · cases hgot
  · next hphase =>
      obtain rfl : phase = .waiting := hphase
      cases inbox with
      | empty =>
        have hentry := hkept.pending.mpr ⟨trivial, rfl⟩
        simp [hentry] at hstep
      | handing value => cases hstep
      | full value =>
        obtain rfl := Option.some.inj hstep
        refine h.setCall hcall rfl ?_ ?_ nofun
        · simp [LspCall.Awaits]
        · rintro value' (hgot | hgot | hgot)
          · cases hgot
          · exact .inr (.inl hgot)
          · obtain rfl : value = value' := by simpa using hgot
            exact .inr (.inl rfl)
  · next hphase =>
      obtain rfl : phase = .waiting := hphase
      have hexpired : s' = s.setCall i ⟨id, size, .timedOut, inbox⟩ := by
        cases inbox with
        | empty => exact (Option.some.inj hstep).symm
        | handing value => exact (Option.some.inj hstep).symm
        | full value => cases hstep
      subst hexpired
      refine h.setCall hcall rfl Iff.rfl ?_ nofun
      rintro value (hgot | hgot | hgot)
      · exact .inl hgot
      · exact .inr (.inl hgot)
      · cases hgot
  · obtain rfl := Option.some.inj hstep
    exact h.removed hcall
  · cases hstep

end Kept

theorem modify_eq_set {α : Type*} {l : List α} {i : Nat} {a : α} (h : l[i]? = some a)
    (f : α → α) : l.modify i f = l.set i (f a) := by
  refine List.ext_getElem? fun j => ?_
  rw [List.getElem?_modify, List.getElem?_set]
  split
  · next hj =>
      subst hj
      rw [h, if_pos (List.getElem?_eq_some_iff.mp h).1]
      rfl
  · cases l[j]? <;> rfl

theorem LspRequests.dispatch_response {s : LspRequests} {message : Json} {id : Nat} {value : Json}
    (h : responseOf message = some (id, value)) :
    s.dispatch message =
      match s.pending.lookup id with
      | some i =>
        { s with
          pending := s.pending.erase id
          calls := s.calls.modify i fun call => { call with inbox := .handing value }
          reader := some i }
      | none => s := by
  unfold responseOf at h
  split at h
  · next id' hid =>
      obtain ⟨result, hresult, hpair⟩ := Option.map_eq_some_iff.mp h
      obtain ⟨rfl, rfl⟩ := Prod.mk.injEq .. ▸ hpair
      simp only [LspRequests.dispatch, hid, hresult]
  · cases h

theorem LspRequests.dispatch_other {s : LspRequests} {message : Json}
    (h : responseOf message = none) :
    ∃ notifications, s.dispatch message = { s with notifications } := by
  unfold LspRequests.dispatch
  split
  · next id hid =>
      have hnone : (message.get "result").or (message.get "error") = none := by
        simpa [responseOf, hid] using h
      simp only [hnone]
      exact ⟨_, rfl⟩
  · split
    · split <;> exact ⟨_, rfl⟩
    · exact ⟨_, rfl⟩

namespace Kept

variable {s s' : LspRequests} {i : Nat} {call : LspCall}

/-- What the calls keep does not hang on the other fields, and more may have been read. -/
theorem congr (h : Kept s) (hcalls : s'.calls = s.calls) (hpending : s'.pending = s.pending)
    (hread : s.responses ⊆ s'.responses) : Kept s' := by
  refine ⟨by rw [hcalls]; exact h.ids, ?_, ?_⟩
  · rw [hpending, hcalls]
    exact h.entries
  · intro i call hcall
    rw [hcalls] at hcall
    obtain ⟨hp, hown, hdrawn⟩ := h.calls i call hcall
    exact ⟨by rw [hpending, hp], fun value hgot => hread (hown value hgot), hdrawn⟩

theorem received (h : Kept s) (message : Json) : Kept { s with read := message :: s.read } := by
  refine h.congr rfl rfl fun response hresponse => ?_
  simp only [LspRequests.responses, List.filterMap_cons]
  split
  · exact hresponse
  · exact List.mem_cons_of_mem _ hresponse

theorem handedOver (h : Kept s) {value : Json} (hcall : s.calls[i]? = some call)
    (hawaits : call.Awaits) (hresponse : (call.id, value) ∈ s.responses) :
    Kept { s with
      pending := s.pending.erase call.id
      calls := s.calls.modify i fun call => { call with inbox := .handing value }
      reader := some i } := by
  refine h.update hcall (modify_eq_set hcall _) rfl
    (fun id hid => ?_) (fun j hj => ?_) rfl ⟨?_, ?_, fun hdrawn => ?_⟩
  · simp [hid]
  · simp at hj
  · simp [LspCall.Awaits]
  · rintro value' (hgot | hgot | hgot)
    · obtain rfl : value = value' := by simpa using hgot
      exact hresponse
    · cases hgot
    · exact (h.calls i call hcall).own value' (.inr (.inr hgot))
  · have hopen := hawaits.1
    simp only at hdrawn
    rw [LspCall.Open, hdrawn] at hopen
    exact hopen.elim

theorem dispatched (h : Kept s) {message : Json}
    (hread : ∀ response, responseOf message = some response → response ∈ s.responses) :
    Kept (s.dispatch message) := by
  cases hresponse : responseOf message with
  | none =>
    obtain ⟨notifications, heq⟩ := LspRequests.dispatch_other (s := s) hresponse
    rw [heq]
    exact h.congr rfl rfl fun _ hmem => hmem
  | some response =>
    obtain ⟨id, value⟩ := response
    rw [LspRequests.dispatch_response hresponse]
    split
    · next i hentry =>
        obtain ⟨call, hcall, rfl, hawaits⟩ := h.lookup_eq_some.mp hentry
        exact h.handedOver hcall hawaits (hread _ hresponse)
    · exact h

theorem delivered (h : Kept s) {value : Json} (hcall : s.calls[i]? = some call)
    (hinbox : call.inbox = .handing value) :
    Kept ({ s with reader := none }.setCall i { call with inbox := .full value }) := by
  refine h.setCall hcall rfl ?_ ?_ fun hdrawn => ?_
  · simp [LspCall.Awaits, hinbox]
  · rintro value' (hgot | hgot | hgot)
    · cases hgot
    · obtain rfl : value = value' := by simpa using hgot
      exact .inl hinbox
    · exact .inr (.inr hgot)
  · have hempty := (h.calls i call hcall).drawn hdrawn
    rw [hinbox] at hempty
    cases hempty

theorem step (h : Kept s) {a : RequestAction} (hok : framesSent s a = true)
    (hstep : requestStep s a = some s') : Kept s' := by
  cases a with
  | draw size =>
    obtain rfl := Option.some.inj hstep
    exact h.drawn hok
  | drawElsewhere =>
    obtain rfl := Option.some.inj hstep
    exact h.congr rfl rfl fun _ hmem => hmem
  | call i a =>
    obtain ⟨call, hcall, hstep⟩ := Option.bind_eq_some_iff.mp hstep
    exact h.callStep hcall hok hstep
  | writerEnds =>
    obtain rfl := Option.some.inj hstep
    exact h.congr rfl rfl fun _ hmem => hmem
  | read message =>
    simp only [requestStep] at hstep
    split at hstep
    · obtain rfl := Option.some.inj hstep
      refine (h.received message).dispatched fun response hresponse => ?_
      simp [LspRequests.responses, hresponse]
    · cases hstep
  | deliver =>
    simp only [requestStep] at hstep
    split at hstep
    · cases hstep
    · next i _ =>
        obtain ⟨call, hcall, hstep⟩ := Option.bind_eq_some_iff.mp hstep
        split at hstep
        · next value hinbox =>
            obtain rfl := Option.some.inj hstep
            exact h.delivered hcall hinbox
        · cases hstep

theorem returned (h : Kept s) (hcall : call ∈ s.calls) (hreturned : call.Returned) :
    s.pending.lookup call.id = none := by
  obtain ⟨i, hcall⟩ := List.mem_iff_getElem?.mp hcall
  obtain ⟨result, hphase⟩ := hreturned
  rw [Option.eq_none_iff_forall_not_mem]
  intro j hentry
  obtain rfl := h.entry_eq hcall hentry
  have hopen := ((h.calls j call hcall).pending.mp hentry).1
  rw [LspCall.Open, hphase] at hopen
  exact hopen

theorem read_eq {message : Json} (hstep : requestStep s (.read message) = some s') :
    s.reader = none ∧ s' = { s with read := message :: s.read }.dispatch message := by
  simp only [requestStep] at hstep
  split at hstep
  · exact ⟨‹_›, (Option.some.inj hstep).symm⟩
  · cases hstep

theorem handed (h : Kept s) {message value : Json} {id : Nat}
    (hstep : requestStep s (.read message) = some s')
    (hresponse : responseOf message = some (id, value)) (i : Nat) :
    (∃ call, s.calls[i]? = some call ∧ call.id = id ∧ call.Awaits) ↔
      s'.reader = some i ∧ ∃ call', s'.calls[i]? = some call' ∧ call'.id = id ∧
        call'.inbox = .handing value := by
  obtain ⟨hreader, rfl⟩ := read_eq hstep
  rw [← h.lookup_eq_some, LspRequests.dispatch_response hresponse]
  constructor
  · intro hentry
    obtain ⟨call, hcall, hid, -⟩ := h.lookup_eq_some.mp hentry
    refine ⟨by simp [hentry], { call with inbox := .handing value }, ?_, hid, rfl⟩
    simp [hentry, hcall]
  · rintro ⟨hread, -⟩
    split at hread
    · next j hentry =>
        obtain rfl : j = i := by simpa using hread
        exact hentry
    · simp [hreader] at hread

theorem noResidue (h : Kept s) : NoResidue s where
  returned _ hcall hreturned := h.returned hcall hreturned
  own call hcall := by
    obtain ⟨i, hcall⟩ := List.mem_iff_getElem?.mp hcall
    exact (h.calls i call hcall).own
  handed _ _ _ _ hstep hresponse i := h.handed hstep hresponse i
  initiated message s' hstep hresponse := by
    obtain ⟨hreader, rfl⟩ := read_eq hstep
    obtain ⟨notifications, heq⟩ :=
      LspRequests.dispatch_other (s := { s with read := message :: s.read }) hresponse
    rw [heq]
    exact ⟨rfl, rfl, hreader⟩

end Kept

/-- In a run in which the writer takes every frame and no id is drawn twice, the requests leave
nothing behind. -/
theorem lspRequests_noResidue {s : LspRequests}
    (h : lspRequests.ReachVia (fun s a => framesSent s a = true) s) : NoResidue s := by
  have hkept : Kept s := by
    refine h.invariant ?_ fun _ _ _ _ hs hok hstep => hs.step hok hstep
    rintro _ ⟨next, -, rfl⟩
    exact ⟨List.nodup_nil, by simp, by simp⟩
  exact hkept.noResidue

/-- A request that is answered. -/
theorem lspRequests_noResidue_answered :
    NoResidue ⟨2, true, ((∅ : Table Nat Nat).insert 1 0).erase 1, [],
      [⟨1, 100, .returned (.ok .null), .full .null⟩], none,
      [.object [("id", .number "1"), ("result", .null)]]⟩ := by
  have hrun : lspRequests.runVia (fun s a => framesSent s a = true)
      ⟨1, true, ∅, [], [], none, []⟩
      [.draw 100, .call 0 .register, .call 0 .sendFrame,
        .read (.object [("id", .number "1"), ("result", .null)]), .deliver, .call 0 .receive] =
        some _ := rfl
  exact lspRequests_noResidue (.runVia (.init ⟨1, by decide, rfl⟩) hrun)

/-- A request whose frame is too large returns and leaves its id behind. -/
theorem lspRequests_leaves_tooLarge : ∃ s, lspRequests.Reachable s ∧ ¬ NoResidue s := by
  have hrun : lspRequests.run ⟨1, true, ∅, [], [], none, []⟩
      [.draw (maxLspRequestBytes + 1), .call 0 .register, .call 0 .sendFrame] = some _ := rfl
  refine ⟨_, .runVia (.init ⟨1, by decide, rfl⟩) hrun, fun h => ?_⟩
  have hnone := h.returned _ List.mem_cons_self ⟨_, rfl⟩
  simp [LspRequests.setCall] at hnone

end HerdrWebui.Lsp
