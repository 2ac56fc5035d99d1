import HerdrWebui.Data.Json
import HerdrWebui.Data.Utf8

/-!
Text that is given to a terminal as one bracketed paste, and when all of it stays in the
paste.
-/

namespace HerdrWebui.Terminal

def pasteStart : String := "\x1b[200~"

def pasteEnd : String := "\x1b[201~"

def isLineBreak (c : Char) : Bool := c == '\r' || c == '\n'

def composerMessage (text : String) : String :=
  let trimmed := String.ofList (text.toList.rdropWhile isLineBreak)
  replaceStr (replaceStr trimmed "\r\n" "\n") "\r" "\n"

def bracketedPastePayload (message : String) : String :=
  pasteStart ++ replaceStr message "\n" "\r" ++ pasteEnd

/-- What a prompt finds of a terminal: whether it has ended and the status, at first and
after one more detection, and what becomes of the two writes. -/
structure PromptTerminal where
  exited : Bool
  status : Option String
  detected : Option String
  write : Except String Unit
  exitedAtEnter : Bool
  enter : Except String Unit

def agentPrompt (terminal : PromptTerminal) (text : String) :
    Except String (List (List UInt8)) :=
  if terminal.exited then .error "agent_exited: terminal has exited"
  else if terminal.status = some "blocked" ∨ terminal.detected = some "blocked" then
    .error "agent_blocked: the agent is waiting for an answer in the terminal"
  else
    let payload := bracketedPastePayload (composerMessage text)
    match terminal.write with
    | .error err => .error s!"io_error: {err}"
    | .ok () =>
      .ok (utf8 payload.toList ::
        if terminal.exitedAtEnter ∨ terminal.enter.isOk = false then [] else [utf8 ['\r']])

def maxComposerChars : Nat := 20000

/-- The request `agent.prompt`. A pane has a terminal's name. -/
def promptRequest (panes : String → Option String) (terminals : String → Option PromptTerminal)
    (params : Json) : Except String (List (List UInt8)) :=
  match (params.getStr "pane_id").or (params.getStr "target"), params.getStr "text" with
  | none, _ => .error "missing param pane_id"
  | some _, none => .error "text is required"
  | some paneId, some text =>
    if (trim text).isEmpty then
      .error "empty_agent_prompt: agent prompt must not be empty"
    else
      match panes paneId with
      | none => .error s!"agent_not_found: pane {paneId} not found"
      | some terminalId =>
        match terminals terminalId with
        | none => .error "agent_not_found: terminal not found"
        | some terminal =>
          if text.length > maxComposerChars then
            .error "message_too_long: composer message exceeds 20000 characters"
          else agentPrompt terminal text

/-- The messages that a browser's frame turns into. -/
inductive TextMessage where
  | input (data : List UInt8)
  | resize (cols rows : Nat)
  | attachScroll (up : Bool) (lines : Nat) (column row : Option Nat) (modifiers : Nat)

/-- `Value::as_u64`. -/
def asU64 : Json → Option Nat
  | .number repr => parseUsize repr
  | _ => none

def getU64 (value : Json) (key : String) : Option Nat := (value.get key).bind asU64

def getFitting (bound : Nat) (value : Json) (key : String) : Option Nat :=
  (getU64 value key).filter (· < bound)

def terminalTextMessages (parse : String → Option Json) (text : String) : List TextMessage :=
  match parse text with
  | none => [.input (utf8 text.toList)]
  | some value =>
    match value.getStr "type" with
    | some "resize" =>
      let cols := min ((getU64 value "cols").getD 100) 65535
      let rows := min ((getU64 value "rows").getD 30) 65535
      [.resize (max cols 1) (max rows 1)]
    | some "scroll" =>
      [.attachScroll (value.getStr "direction" = some "up")
        (min (max ((getU64 value "lines").getD 3) 1) 65535)
        (getFitting (2 ^ 16) value "column") (getFitting (2 ^ 16) value "row")
        ((getFitting (2 ^ 8) value "modifiers").getD 0)]
    | some "paste" =>
      (value.getStr "text").toList.map fun text =>
        .input (utf8 (pasteStart ++ text ++ pasteEnd).toList)
    | kind =>
      if kind = some "key" ∧ value.getStr "code" = some "Enter" then
        let modifiers := (getFitting (2 ^ 8) value "modifiers").getD 0
        [.input (utf8 (if modifiers % 2 = 1 then "\x1b[13;2u" else "\r").toList)]
      else
        (value.getStr "input").toList.map fun input => .input (utf8 input.toList)

/-- `paste_text` of the client of a backend, and of its writer. -/
def pasteText (text : String) : List UInt8 := utf8 (pasteStart ++ text ++ pasteEnd).toList

/-- One paste, and then at most the submit key. -/
def IsOnePaste (bytes : List UInt8) : Prop :=
  ∃ payload submit : List UInt8,
    bytes = utf8 pasteStart.toList ++ (payload ++ (utf8 pasteEnd.toList ++ submit)) ∧
    ¬utf8 pasteEnd.toList <:+: payload ∧ (submit = [] ∨ submit = utf8 ['\r'])

/-- What is written to a terminal for a text, by a prompt, by a paste from the browser and
by a paste of the client. -/
inductive Pasted (text : String) : List UInt8 → Prop
  | prompt (panes : String → Option String) (terminals : String → Option PromptTerminal)
      (params : Json) (writes : List (List UInt8)) :
      params.getStr "text" = some text → promptRequest panes terminals params = .ok writes →
      Pasted text writes.flatten
  | web (parse : String → Option Json) (frame : String) (value : Json) (data : List UInt8) :
      parse frame = some value → value.getStr "type" = some "paste" →
      value.getStr "text" = some text → .input data ∈ terminalTextMessages parse frame →
      Pasted text data
  | client : Pasted text (pasteText text)

theorem pasteEnd_ascii : ∀ c ∈ pasteEnd.toList, c.utf8Size = 1 := 
  forall_mem_of_all (by decide +kernel)

theorem pasteEnd_ne_nil : pasteEnd.toList ≠ [] := by decide +kernel

/-- The end of a paste has no line break, so none of the replacements makes or breaks
one. -/
theorem infix_composerMessage_iff (text : String) :
    pasteEnd.toList <:+: (composerMessage text).toList ↔ pasteEnd.toList <:+: text.toList := by
  have hcr : ∀ c ∈ "\r".toList, c ∉ pasteEnd.toList :=
    forall_mem_of_all (by decide +kernel)
  have hlf : ∀ c ∈ "\n".toList, c ∉ pasteEnd.toList :=
    forall_mem_of_all (by decide +kernel)
  have hcrlf : ∀ c ∈ "\r\n".toList, c ∉ pasteEnd.toList :=
    forall_mem_of_all (by decide +kernel)
  have hbreaks : ∀ c ∈ pasteEnd.toList, isLineBreak c = false :=
    forall_mem_of_all (by decide +kernel)
  rw [composerMessage, infix_replaceStr_iff hcr hlf (by decide) (by decide) pasteEnd_ne_nil,
    infix_replaceStr_iff hcrlf hlf (by decide) (by decide) pasteEnd_ne_nil,
    String.toList_ofList, infix_rdropWhile_iff hbreaks pasteEnd_ne_nil]

theorem infix_payload_iff (text : String) :
    pasteEnd.toList <:+: (replaceStr (composerMessage text) "\n" "\r").toList ↔
      pasteEnd.toList <:+: text.toList := by
  have hcr : ∀ c ∈ "\r".toList, c ∉ pasteEnd.toList :=
    forall_mem_of_all (by decide +kernel)
  have hlf : ∀ c ∈ "\n".toList, c ∉ pasteEnd.toList :=
    forall_mem_of_all (by decide +kernel)
  rw [infix_replaceStr_iff hlf hcr (by decide) (by decide) pasteEnd_ne_nil,
    infix_composerMessage_iff]

theorem isOnePaste_iff {body submit : List UInt8} (h : submit = [] ∨ submit = utf8 ['\r']) :
    IsOnePaste (utf8 pasteStart.toList ++ (body ++ (utf8 pasteEnd.toList ++ submit))) ↔
      ¬utf8 pasteEnd.toList <:+: body := by
  constructor
  · rintro ⟨payload, submit', heq, hend, h'⟩
    rw [List.append_cancel_left_eq] at heq
    have hlast : submit = submit' := by
      have hmark : utf8 pasteEnd.toList = [27, 91, 50, 48, 49, 126] := by decide +kernel
      have hkey : utf8 ['\r'] = [13] := by decide +kernel
      have hbytes := congrArg List.getLast? heq
      rw [hmark] at hbytes
      rcases h with rfl | rfl <;> rcases h' with rfl | rfl
      · rfl
      · simp [hkey] at hbytes
      · simp [hkey] at hbytes
      · rfl
    rw [hlast, List.append_cancel_right_eq] at heq
    rwa [heq]
  · exact fun hend => ⟨body, submit, rfl, hend, h⟩

theorem promptRequest_ok {panes : String → Option String}
    {terminals : String → Option PromptTerminal} {params : Json} {text : String}
    {writes : List (List UInt8)} (htext : params.getStr "text" = some text)
    (h : promptRequest panes terminals params = .ok writes) :
    ∃ terminal, agentPrompt terminal text = .ok writes := by
  unfold promptRequest at h
  rw [htext] at h
  cases hpane : (params.getStr "pane_id").or (params.getStr "target") with
  | none =>
    rw [hpane] at h
    cases h
  | some paneId =>
    rw [hpane] at h
    dsimp only at h
    split at h
    · cases h
    · split at h
      · cases h
      · split at h
        · cases h
        · next terminal _ =>
            split at h
            · cases h
            · exact ⟨terminal, h⟩

/-- A prompt writes the payload, and the submit key unless the terminal is gone. -/
theorem agentPrompt_ok {terminal : PromptTerminal} {text : String}
    {writes : List (List UInt8)} (h : agentPrompt terminal text = .ok writes) :
    ∃ submit, (submit = [] ∨ submit = utf8 ['\r']) ∧
      writes.flatten = utf8 pasteStart.toList ++
        (utf8 (replaceStr (composerMessage text) "\n" "\r").toList ++
          (utf8 pasteEnd.toList ++ submit)) := by
  have hbytes : utf8 (bracketedPastePayload (composerMessage text)).toList =
      utf8 pasteStart.toList ++ (utf8 (replaceStr (composerMessage text) "\n" "\r").toList ++
        utf8 pasteEnd.toList) := by
    rw [bracketedPastePayload, String.toList_append, String.toList_append, utf8_append,
      utf8_append, List.append_assoc]
  unfold agentPrompt at h
  split at h
  · cases h
  · split at h
    · cases h
    · dsimp only at h
      split at h
      · cases h
      · obtain rfl := Except.ok.inj h
        split
        · exact ⟨[], .inl rfl, by simp [hbytes]⟩
        · exact ⟨utf8 ['\r'], .inr rfl, by simp [hbytes]⟩

/-- A text stays in its paste just if it does not have the end of a paste. -/
theorem isOnePaste_pasted {text : String} {bytes : List UInt8} (h : Pasted text bytes) :
    IsOnePaste bytes ↔ ¬pasteEnd.toList <:+: text.toList := by
  have hwhole : IsOnePaste (utf8 (pasteStart ++ text ++ pasteEnd).toList) ↔
      ¬pasteEnd.toList <:+: text.toList := by
    have hbody : IsOnePaste (utf8 pasteStart.toList ++
        (utf8 text.toList ++ (utf8 pasteEnd.toList ++ []))) ↔ _ := isOnePaste_iff (.inl rfl)
    rw [infix_utf8_iff pasteEnd_ascii pasteEnd_ne_nil, List.append_nil] at hbody
    rw [String.toList_append, String.toList_append, utf8_append, utf8_append,
      List.append_assoc, hbody]
  cases h with
  | prompt panes terminals params writes htext hwrites =>
    obtain ⟨terminal, hprompt⟩ := promptRequest_ok htext hwrites
    obtain ⟨submit, hsubmit, hbytes⟩ := agentPrompt_ok hprompt
    rw [hbytes, isOnePaste_iff hsubmit, infix_utf8_iff pasteEnd_ascii pasteEnd_ne_nil,
      infix_payload_iff]
  | web parse frame value _ hparse htype htext hdata =>
    unfold terminalTextMessages at hdata
    rw [hparse] at hdata
    dsimp only at hdata
    rw [htype, htext] at hdata
    obtain rfl : bytes = utf8 (pasteStart ++ text ++ pasteEnd).toList := by
      simpa using hdata
    exact hwhole
  | client => exact hwhole

section Example

def idleTerminal : PromptTerminal := ⟨false, none, none, .ok (), false, .ok ()⟩

def promptParams (text : String) : Json :=
  .object [("pane_id", .string "p1"), ("text", .string text)]

def promptOf (text : String) : Except String (List (List UInt8)) :=
  promptRequest (fun _ => some "t1") (fun _ => some idleTerminal) (promptParams text)

example : promptOf "a\r\nb\n" = .ok [utf8 "\x1b[200~a\rb\x1b[201~".toList, utf8 ['\r']] := by
  decide +kernel

theorem isOnePaste_two_lines : IsOnePaste (pasteText "a\nb") := by
  apply (isOnePaste_pasted .client).mpr
  decide +kernel

/-- The end of the text is typed. -/
theorem not_isOnePaste_escape : ∃ writes, promptOf "x\x1b[201~ls" = .ok writes ∧
    Pasted "x\x1b[201~ls" writes.flatten ∧ ¬IsOnePaste writes.flatten := by
  have hwrites : promptOf "x\x1b[201~ls" =
      .ok [utf8 "\x1b[200~x\x1b[201~ls\x1b[201~".toList, utf8 ['\r']] := by decide +kernel
  obtain ⟨terminal, hprompt⟩ := promptRequest_ok rfl hwrites
  obtain ⟨submit, hsubmit, hbytes⟩ := agentPrompt_ok hprompt
  refine ⟨_, hwrites, .prompt _ _ (promptParams _) _ rfl hwrites, ?_⟩
  rw [hbytes, isOnePaste_iff hsubmit, infix_utf8_iff pasteEnd_ascii pasteEnd_ne_nil,
    infix_payload_iff, not_not]
  decide +kernel

end Example

end HerdrWebui.Terminal
