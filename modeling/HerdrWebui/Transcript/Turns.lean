import HerdrWebui.Transcript.Messages

/-!
The turns of a conversation from the messages of its session. The messages are walked
once. A tool call becomes a part of its assistant turn, and a result that comes later is
folded into the part; the calls still without a result at the end are in flight. The text
form of a JSON value is a parameter.
-/

namespace HerdrWebui.Transcript

inductive TurnRole where
  | user
  | assistant
  deriving DecidableEq

structure DecisionOption where
  label : String
  detail : Option String
  deriving DecidableEq

structure DecisionPayload where
  question : String
  options : List DecisionOption
  context : Option String
  deriving DecidableEq

structure ToolCall where
  name : String
  brief : String
  input : String
  output : String
  isError : Bool
  /-- The id of the call, if its output was trimmed. -/
  outputRef : Option String
  /-- The length of the whole output in characters, if it was trimmed. -/
  outputSize : Option Nat
  deriving DecidableEq

inductive TurnPart where
  | text (text : String)
  | thinking (text : String)
  | tool (call : ToolCall)
  | toolPending (name : String)
  | decision (payload : DecisionPayload)
  | compact (summary : String)
  | image (mediaType refId : String)
  deriving DecidableEq

structure Turn where
  role : TurnRole
  ts : Option String
  endTs : Option String
  messageId : Option String
  parts : List TurnPart
  deriving DecidableEq

def truncateChars (s : String) (max : Nat) : String :=
  if s.length ≤ max then s else String.ofList (s.toList.take max) ++ "…"

def nonblank (text : String) : Bool := !(trim text).isEmpty

/-- `tool_result_text_uncapped`. -/
def resultText (block : JsonMap) : String :=
  match block.lookup "content" with
  | some (.string s) => s
  | some (.array items) => "\n".intercalate (items.filterMap (·.getStr "text"))
  | _ => ""

def maxOutputChars : Nat := 4000

def trimmedMark : String := "\n… trimmed"

/-- The head of an output, and whether something was cut off. -/
def toolResultText (block : JsonMap) : String × Bool :=
  let text := resultText block
  if text.length ≤ maxOutputChars then (text, false)
  else (String.ofList (text.toList.take maxOutputChars) ++ trimmedMark, true)

def blockContentChars (block : JsonMap) : Nat := (resultText block).length

def decisionOption (opt : Json) : Option DecisionOption :=
  ((opt.getStr "label").bind trimNonempty).map fun label =>
    ⟨label, opt.getStr "detail"⟩

def decisionPayload (block : JsonMap) : Option DecisionPayload := do
  let input ← (block.lookup "input").bind Json.asObject
  let question ← (input.getStr "question").bind trimNonempty
  let options := (← (input.lookup "options").bind Json.asArray).filterMap decisionOption
  if options.isEmpty then none
  else some ⟨question, options, input.getStr "context"⟩

section Parse

variable (render : Json → String)

/-- The value of a field in the summary of a call without a stated intent. -/
def briefField (field : String × Json) : String :=
  let value := match field.2.asStr with
    | some s => s
    | none => String.ofList ((render field.2).toList.take 30)
  field.1 ++ "=" ++ truncateChars value 30

def toolBrief (block : JsonMap) : String :=
  let input := block.lookup "input"
  match (input.bind (·.getStr "intent")).filter nonblank with
  | some intent => truncateChars intent 120
  | none =>
    match input.bind Json.asObject with
    | none => ""
    | some fields =>
      let brief := ["command", "path", "file_path", "pattern", "query", "url"].findSome?
        fun key => (fields.getStr key).map (truncateChars · 80)
      match brief.filter (!·.isEmpty) with
      | some brief => brief
      | none => " ".intercalate ((fields.take 3).map (briefField render))

def toolUse (block : JsonMap) : ToolCall where
  name := (block.getStr "name").getD "tool"
  brief := toolBrief render block
  input := ((block.lookup "input").map render).getD "\x7b\x7d"
  output := ""
  isError := false
  outputRef := none
  outputSize := none

structure ParseState where
  turns : List Turn
  /-- The calls without a result, by id: the turn and the part. -/
  pendingTools : List (String × Nat × Nat)
  pendingDecisions : List (String × DecisionPayload)

/-- `HashMap::insert`. -/
def insertKey {α : Type} (key : String) (value : α) (entries : List (String × α)) :
    List (String × α) :=
  (key, value) :: entries.filter (·.1 ≠ key)

def modifyPart (turns : List Turn) (turnIdx partIdx : Nat) (f : TurnPart → TurnPart) :
    List Turn :=
  turns.modify turnIdx fun turn => { turn with parts := turn.parts.modify partIdx f }

def pushPart (turns : List Turn) (turnIdx : Nat) (part : TurnPart) : List Turn :=
  turns.modify turnIdx fun turn => { turn with parts := turn.parts ++ [part] }

def TurnPart.withResult (id : String) (block : JsonMap) (isError : Bool) :
    TurnPart → TurnPart
  | .tool call =>
    let (trimmed, wasCut) := toolResultText block
    .tool
      { call with
        output := trimmed
        isError
        outputRef := if wasCut then some id else call.outputRef
        outputSize := if wasCut then some (blockContentChars block) else call.outputSize }
  | part => part

structure ToolResult where
  id : String
  block : JsonMap
  isError : Bool

def foldResult (s : ParseState) (result : ToolResult) : ParseState :=
  match s.pendingTools.lookup result.id with
  | none => s
  | some (turnIdx, partIdx) =>
    { s with
      turns := modifyPart s.turns turnIdx partIdx
        (TurnPart.withResult result.id result.block result.isError)
      pendingTools := s.pendingTools.filter (·.1 ≠ result.id) }

def textBlock (block : JsonMap) : Option String :=
  if block.getStr "type" = some "text" then (block.getStr "text").filter nonblank else none

def toolResult (block : JsonMap) : Option ToolResult :=
  if block.getStr "type" = some "tool_result" then
    (block.getStr "tool_use_id").map fun id =>
      ⟨id, block, match block.lookup "is_error" with
        | some (.bool true) => true
        | _ => false⟩
  else none

/-- The parts of a person's turn: the images lead. -/
def userParts (id : Option String) (images : List (String × String)) (texts : List String) :
    List TurnPart :=
  (images.filterMap fun image => id.map fun refId => .image image.1 refId) ++
    if texts.isEmpty then [] else [.text ("\n".intercalate texts)]

def userMessage (s : ParseState) (message : Json) (blocks : List Json) : ParseState :=
  let objects := blocks.filterMap Json.asObject
  let texts := objects.filterMap textBlock
  let id := messageId message
  let images := userImageRefs message
  let s := (objects.filterMap toolResult).foldl foldResult s
  if texts.isEmpty && images.isEmpty then s
  else
    let ts := messageTs message
    { s with turns := s.turns ++ [⟨.user, ts, ts, id, userParts id images texts⟩] }

/-- The turn an assistant message goes to: the last one, if it is the assistant's. -/
def openTurn (turns : List Turn) (message : Json) : List Turn :=
  match turns.getLast? with
  | some ⟨.assistant, _, _, _, _⟩ => turns
  | _ => turns ++ [⟨.assistant, messageTs message, messageTs message, messageId message, []⟩]

def setEndTs (turns : List Turn) (turnIdx : Nat) (ts : Option String) : List Turn :=
  match ts with
  | some ts => turns.modify turnIdx fun turn => { turn with endTs := some ts }
  | none => turns

def pushToolUse (s : ParseState) (turnIdx : Nat) (block : JsonMap) : ParseState :=
  let call := toolUse render block
  let partIdx := ((s.turns[turnIdx]?).map (·.parts.length)).getD 0
  let s := { s with turns := pushPart s.turns turnIdx (.tool call) }
  match block.getStr "id" with
  | none => s
  | some id =>
    { s with
      pendingTools := insertKey id (turnIdx, partIdx) s.pendingTools
      pendingDecisions :=
        if call.name = "ask_user" then
          match decisionPayload block with
          | some payload => insertKey id payload s.pendingDecisions
          | none => s.pendingDecisions
        else s.pendingDecisions }

/-- The text of a block of thinking, as the field of its type has it. -/
def thinkingText (block : JsonMap) : Option String :=
  match block.getStr "type" with
  | some "reasoning" | some "reasoning_trace" | some "open_a_i_reasoning" =>
    block.getStr "text"
  | some "anthropic_thinking" =>
    ((block.lookup "thinking").or (block.lookup "text")).bind Json.asStr
  | _ => none

def assistantBlock (turnIdx : Nat) (s : ParseState) (block : JsonMap) : ParseState :=
  if block.getStr "type" = some "tool_use" then pushToolUse render s turnIdx block
  else
    match textBlock block, (thinkingText block).filter nonblank with
    | some text, _ => { s with turns := pushPart s.turns turnIdx (.text text) }
    | none, some text => { s with turns := pushPart s.turns turnIdx (.thinking text) }
    | none, none => s

def assistantMessage (s : ParseState) (message : Json) (blocks : List Json) : ParseState :=
  let turns := openTurn s.turns message
  let turnIdx := turns.length - 1
  (blocks.filterMap Json.asObject).foldl (assistantBlock render turnIdx)
    { s with turns := setEndTs turns turnIdx (messageTs message) }

def parseMessage (s : ParseState) (message : Json) : ParseState :=
  match contentBlocks message with
  | none => s
  | some blocks =>
    if isBookkeepingMessage message then s
    else
      match message.getStr "role" with
      | some "user" => userMessage s message blocks
      | some "assistant" => assistantMessage render s message blocks
      | _ => s

def walkMessages (messages : List Json) : ParseState :=
  messages.foldl (parseMessage render) ⟨[], [], []⟩

/-- A call without a result: a question to answer, or a running row. -/
def settlePart (s : ParseState) (turnIdx partIdx : Nat) : TurnPart → TurnPart
  | .tool call =>
    let decision :=
      if call.name = "ask_user" then
        (s.pendingTools.find? fun entry => entry.2 = (turnIdx, partIdx)).bind
          fun entry => s.pendingDecisions.lookup entry.1
      else none
    match decision with
    | some payload => .decision payload
    | none => .toolPending call.name
  | part => part

def settleInflight (s : ParseState) : List Turn :=
  s.pendingTools.foldl
    (fun turns entry => modifyPart turns entry.2.1 entry.2.2 (settlePart s entry.2.1 entry.2.2))
    s.turns

def parseJcodeTranscript (messages : List Json) : List Turn :=
  (settleInflight (walkMessages render messages)).filter (!·.parts.isEmpty)

theorem map_modify_of_comp {α β : Type} {f : α → α} {g : α → β} (h : ∀ x, g (f x) = g x)
    (l : List α) (i : Nat) : (l.modify i f).map g = l.map g := by
  induction l generalizing i with
  | nil => rw [List.modify_nil]
  | cons x l ih =>
    cases i with
    | zero => rw [List.modify_zero_cons, List.map_cons, List.map_cons, h]
    | succ i => rw [List.modify_succ_cons, List.map_cons, List.map_cons, ih]

theorem filterMap_modify_of_comp {α β : Type} {f : α → α} {g : α → Option β}
    (h : ∀ x, g (f x) = g x) (l : List α) (i : Nat) :
    (l.modify i f).filterMap g = l.filterMap g := by
  have hmap (l : List α) : l.filterMap g = (l.map g).filterMap id :=
    (List.filterMap_map (f := g) (g := id)).symm
  rw [hmap, hmap, map_modify_of_comp h]

variable {render} {turns : List Turn} {turnIdx : Nat}

theorem length_setEndTs (ts : Option String) :
    (setEndTs turns turnIdx ts).length = turns.length := by
  unfold setEndTs
  split
  · exact List.length_modify _ _ _
  · rfl

theorem length_pushPart (part : TurnPart) :
    (pushPart turns turnIdx part).length = turns.length := List.length_modify _ _ _

theorem length_assistantBlock {s : ParseState} {block : JsonMap} :
    (assistantBlock render turnIdx s block).turns.length = s.turns.length := by
  unfold assistantBlock
  split
  · unfold pushToolUse
    dsimp only
    split
    · exact length_pushPart _
    · exact length_pushPart _
  · split
    · exact length_pushPart _
    · exact length_pushPart _
    · rfl

theorem openTurn_last (message : Json) :
    (openTurn turns message).length - 1 + 1 = (openTurn turns message).length := by
  apply Nat.sub_add_cancel
  unfold openTurn
  split
  · next hlast =>
      apply List.length_pos_iff.mpr
      rintro rfl
      cases hlast
  · rw [List.length_append]
    exact Nat.le_add_left _ _

end Parse

theorem lookup_insertKey {α : Type} (key other : String) (value : α)
    (entries : List (String × α)) :
    (insertKey key value entries).lookup other =
      if other = key then some value else entries.lookup other := by
  rw [insertKey, List.lookup_cons]
  by_cases heq : other = key
  · simp [heq]
  · rw [if_neg heq, beq_false_of_ne heq]
    dsimp only
    induction entries with
    | nil => rfl
    | cons entry entries ih =>
      obtain ⟨name, row⟩ := entry
      by_cases hname : name = key
      · have hother : (other == name) = false := beq_false_of_ne (hname ▸ heq)
        rw [List.filter_cons_of_neg (by simp [hname]), ih, List.lookup_cons, hother]
      · rw [List.filter_cons_of_pos (by simp [hname]), List.lookup_cons, List.lookup_cons, ih]

theorem nodup_keys_insertKey {α : Type} {key : String} {value : α}
    {entries : List (String × α)} (h : (entries.map Prod.fst).Nodup) :
    ((insertKey key value entries).map Prod.fst).Nodup := by
  rw [insertKey, List.map_cons, List.nodup_cons]
  refine ⟨fun hmem => ?_, h.sublist (List.filter_sublist.map _)⟩
  obtain ⟨entry, hentry, hkey⟩ := List.mem_map.mp hmem
  have hne := (List.mem_filter.mp hentry).2
  simp [hkey] at hne

theorem mem_iff_lookup {α : Type} {entries : List (String × α)}
    (h : (entries.map Prod.fst).Nodup) {key : String} {value : α} :
    (key, value) ∈ entries ↔ entries.lookup key = some value := by
  induction entries with
  | nil => simp
  | cons entry entries ih =>
    obtain ⟨name, row⟩ := entry
    rw [List.map_cons, List.nodup_cons] at h
    rw [List.mem_cons, Prod.mk.injEq, ih h.2, List.lookup_cons]
    by_cases hname : key = name
    · subst hname
      have hnone : entries.lookup key ≠ some value := by
        intro hsome
        exact h.1 (List.mem_map.mpr ⟨_, (ih h.2).mpr hsome, rfl⟩)
      simp [hnone, eq_comm]
    · simp [hname, beq_false_of_ne hname]

theorem lookup_filter_key {α : Type} {entries : List (String × α)} {p : String → Bool}
    {key : String} (h : p key = true) :
    (entries.filter fun entry => p entry.1).lookup key = entries.lookup key := by
  induction entries with
  | nil => rfl
  | cons entry entries ih =>
    obtain ⟨name, row⟩ := entry
    rw [List.filter_cons, List.lookup_cons]
    dsimp only
    by_cases hname : key = name
    · subst hname
      rw [if_pos h, List.lookup_cons, ih]
    · rw [beq_false_of_ne hname]
      dsimp only
      split
      · rw [List.lookup_cons, beq_false_of_ne hname, ih]
      · exact ih

end HerdrWebui.Transcript
