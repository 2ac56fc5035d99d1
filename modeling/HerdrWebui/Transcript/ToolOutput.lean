import HerdrWebui.Transcript.Parts

/-!
The whole output of a tool call, fetched by the reference its part carries. The page has
the head of a long output and its length in characters; the fetch walks the messages of
the session again and takes the first result with that id.
-/

namespace HerdrWebui.Transcript

def toolOutputMax : Nat := 2000000

def capToolOutput (text : String) : String :=
  if text.length > toolOutputMax then
    String.ofList (text.toList.take toolOutputMax) ++ trimmedMark
  else text

def isResultOf (reference : String) (block : JsonMap) : Bool :=
  block.getStr "type" == some "tool_result" && block.getStr "tool_use_id" == some reference

def findToolOutput (messages : List Json) (reference : String) : Option String :=
  messages.findSome? fun message =>
    ((objectBlocks message).find? (isResultOf reference)).map fun block =>
      capToolOutput (resultText block)

def toolOutputByRef (fromStr : String → Option Json) (files : SessionFiles)
    (reference : String) : Option String :=
  if validToolRef reference then findToolOutput (loadSessionMessages fromStr files) reference
  else none

/-- The results with an id, in any message. -/
def resultsOf (messages : List Json) (reference : String) : List JsonMap :=
  (messages.flatMap objectBlocks).filter (isResultOf reference)

/-- The head of an output, as the page has it. -/
def trimmedHead (text : String) : String :=
  String.ofList (text.toList.take maxOutputChars) ++ trimmedMark

variable {messages : List Json} {reference : String}

theorem findToolOutput_eq :
    findToolOutput messages reference =
      (resultsOf messages reference).head?.map fun block =>
        capToolOutput (resultText block) := by
  rw [resultsOf, List.head?_filter, findToolOutput]
  induction messages with
  | nil => rfl
  | cons message messages ih =>
    rw [List.findSome?_cons, List.flatMap_cons, List.find?_append]
    cases (objectBlocks message).find? (isResultOf reference) with
    | none =>
      rw [Option.none_or]
      exact ih
    | some block => rfl

/-- Where the results with an id agree on the text, it is the text that is fetched. -/
theorem findToolOutput_of_agree {block : JsonMap} (hmem : block ∈ resultsOf messages reference)
    (hagree : ∀ other ∈ resultsOf messages reference, resultText other = resultText block) :
    findToolOutput messages reference = some (capToolOutput (resultText block)) := by
  rw [findToolOutput_eq]
  cases hresults : resultsOf messages reference with
  | nil =>
    rw [hresults] at hmem
    exact absurd hmem List.not_mem_nil
  | cons first rest =>
    rw [hresults] at hagree
    have hfirst := hagree first List.mem_cons_self
    rw [List.head?_cons, Option.map_some, hfirst]

/-- A part whose output was trimmed has it from a result with the id of its reference. -/
def OutputFrom (messages : List Json) : TurnPart → Prop
  | .tool call => ∀ reference, call.outputRef = some reference →
      ∃ block ∈ resultsOf messages reference,
        call.outputSize = some (resultText block).length ∧
        call.output = trimmedHead (resultText block)
  | _ => True

theorem toolResult_eq_some {block : JsonMap} {result : ToolResult}
    (h : toolResult block = some result) :
    result.block = block ∧ isResultOf result.id block = true := by
  rw [toolResult] at h
  split at h
  · next htype =>
      obtain ⟨id, hid, rfl⟩ := Option.map_eq_some_iff.mp h
      refine ⟨rfl, ?_⟩
      simp [isResultOf, htype, hid]
  · cases h

theorem withResult_tool (call : ToolCall) (id : String) (block : JsonMap) (isError : Bool) :
    (TurnPart.tool call).withResult id block isError = .tool
      { call with
        output := (toolResultText block).1
        isError
        outputRef := if (toolResultText block).2 then some id else call.outputRef
        outputSize :=
          if (toolResultText block).2 then some (blockContentChars block)
          else call.outputSize } := rfl

theorem toolResultText_of_le {block : JsonMap} (h : (resultText block).length ≤ maxOutputChars) :
    toolResultText block = (resultText block, false) := if_pos h

theorem toolResultText_of_not_le {block : JsonMap}
    (h : ¬(resultText block).length ≤ maxOutputChars) :
    toolResultText block = (trimmedHead (resultText block), true) := if_neg h

theorem outputFrom_withResult {result : ToolResult} {part : TurnPart}
    (hmem : result.block ∈ resultsOf messages result.id) (huntrimmed : part.Untrimmed) :
    OutputFrom messages (part.withResult result.id result.block result.isError) := by
  cases part with
  | tool call =>
    change call.outputRef = none at huntrimmed
    by_cases hshort : (resultText result.block).length ≤ maxOutputChars
    · rw [withResult_tool, toolResultText_of_le hshort]
      intro reference href
      exact absurd (huntrimmed.symm.trans href) (by simp)
    · rw [withResult_tool, toolResultText_of_not_le hshort]
      intro reference href
      obtain rfl : result.id = reference := Option.some.inj href
      exact ⟨result.block, hmem, rfl, rfl⟩
  | _ => exact trivial

theorem outputFrom_kept (render : Json → String) (messages : List Json) :
    PartsKept render (OutputFrom messages) messages where
  user message _ _ texts part hpart := by
    rcases mem_userParts hpart with ⟨image, -, refId, rfl⟩ | ⟨text, rfl⟩
    · exact trivial
    · exact trivial
  result message hmessage result hresult part huntrimmed _ := by
    obtain ⟨block, hblock, hmade⟩ := List.mem_filterMap.mp hresult
    obtain ⟨rfl, hresultOf⟩ := toolResult_eq_some hmade
    refine outputFrom_withResult (List.mem_filter.mpr ⟨?_, hresultOf⟩) huntrimmed
    exact List.mem_flatMap.mpr ⟨message, hmessage, hblock⟩
  text _ := trivial
  thinking _ := trivial
  tool _ _ href := by cases href
  pending _ := trivial
  decision _ := trivial

/-- The page has the head and the length of the output of a result with the id of the
reference. It is the output that is fetched, up to the cap, if the reference is one the
fetch takes and no two results with that id have different texts. -/
theorem toolOutputByRef_of_part {fromStr : String → Option Json} {render : Json → String}
    {files : SessionFiles} {turn : Turn} {call : ToolCall}
    (hturn : turn ∈ parseJcodeTranscript render (loadSessionMessages fromStr files))
    (hpart : .tool call ∈ turn.parts) (href : call.outputRef = some reference) :
    ∃ block ∈ resultsOf (loadSessionMessages fromStr files) reference,
      call.outputSize = some (resultText block).length ∧
      call.output = trimmedHead (resultText block) ∧
      (validToolRef reference = true →
        (∀ other ∈ resultsOf (loadSessionMessages fromStr files) reference,
          resultText other = resultText block) →
        toolOutputByRef fromStr files reference =
          some (capToolOutput (resultText block))) := by
  have hparts := (outputFrom_kept render (loadSessionMessages fromStr files)).parse
  obtain ⟨block, hblock, hsize, hhead⟩ := hparts turn hturn _ hpart reference href
  refine ⟨block, hblock, hsize, hhead, fun hvalid hagree => ?_⟩
  rw [toolOutputByRef, if_pos hvalid]
  exact findToolOutput_of_agree hblock hagree

section Sample

def callBlock : JsonMap :=
  [("id", .string "t1"), ("name", .string "bash"), ("type", .string "tool_use")]

def resultBlock (text : String) : JsonMap :=
  [("content", .string text), ("tool_use_id", .string "t1"),
    ("type", .string "tool_result")]

def callMessage : Json :=
  .object [("content", .array [.object callBlock]), ("role", .string "assistant")]

def resultMessage (text : String) : Json :=
  .object [("content", .array [.object (resultBlock text)]), ("role", .string "user")]

def sampleOutput : String := String.ofList (List.replicate 4001 'é')

def sampleSnapshot : String :=
  "\x7b\"messages\":[\x7b\"role\":\"assistant\",\"content\":[\x7b\"type\":\"tool_use\"," ++
    "\"id\":\"t1\",\"name\":\"bash\"\x7d]\x7d,\x7b\"role\":\"user\",\"content\":[" ++
    "\x7b\"type\":\"tool_result\",\"tool_use_id\":\"t1\",\"content\":\"" ++ sampleOutput ++
    "\"\x7d]\x7d]\x7d"

def sampleFromStr (text : String) : Option Json :=
  if text = sampleSnapshot then
    some (.object [("messages", .array [callMessage, resultMessage sampleOutput])])
  else none

def sampleFiles : SessionFiles := ⟨some sampleSnapshot, none, false⟩

def sampleCall (text : String) : ToolCall where
  name := "bash"
  brief := ""
  input := "\x7b\x7d"
  output := trimmedHead text
  isError := false
  outputRef := some "t1"
  outputSize := some text.length

theorem sample_load :
    loadSessionMessages sampleFromStr sampleFiles =
      [callMessage, resultMessage sampleOutput] := by
  rw [loadSessionMessages, snapshotMessages, sampleFiles, Option.bind_some, sampleFromStr,
    if_pos rfl]
  rfl

theorem sample_parse (render : Json → String) {text : String}
    (hlong : ¬text.length ≤ maxOutputChars) :
    parseJcodeTranscript render [callMessage, resultMessage text] =
      [⟨.assistant, none, none, none, [.tool (sampleCall text)]⟩] := by
  have hresult : toolResultText (resultBlock text) = (trimmedHead text, true) :=
    toolResultText_of_not_le hlong
  have hwalk : walkMessages render [callMessage, resultMessage text] =
      ⟨[⟨.assistant, none, none, none, [(TurnPart.tool (toolUse render callBlock)).withResult
        "t1" (resultBlock text) false]⟩], [], []⟩ := rfl
  rw [parseJcodeTranscript, hwalk, withResult_tool, hresult]
  rfl

theorem length_replicated (n : Nat) (c : Char) :
    (String.ofList (List.replicate n c)).length = n := by
  rw [String.length_ofList, List.length_replicate]

theorem utf8ByteSize_replicated (n : Nat) (c : Char) :
    (String.ofList (List.replicate n c)).utf8ByteSize = n * c.utf8Size := by
  induction n with
  | zero => rw [Nat.zero_mul]; rfl
  | succ n ih =>
    rw [List.replicate_succ, String.ofList_cons, String.utf8ByteSize_append,
      String.utf8ByteSize_singleton, ih, Nat.succ_mul, Nat.add_comm]

theorem sample_length : sampleOutput.length = 4001 := length_replicated 4001 'é'

theorem sample_long : ¬sampleOutput.length ≤ maxOutputChars := by
  simp [sample_length, maxOutputChars]

theorem sample_turns :
    parseJcodeTranscript (fun _ => "") (loadSessionMessages sampleFromStr sampleFiles) =
      [⟨.assistant, none, none, none, [.tool (sampleCall sampleOutput)]⟩] := by
  rw [sample_load]
  exact sample_parse _ sample_long

theorem sample_toolOutputByRef :
    ∃ block ∈ resultsOf (loadSessionMessages sampleFromStr sampleFiles) "t1",
      (sampleCall sampleOutput).outputSize = some (resultText block).length ∧
      (sampleCall sampleOutput).output = trimmedHead (resultText block) ∧
      toolOutputByRef sampleFromStr sampleFiles "t1" =
        some (capToolOutput (resultText block)) := by
  have hturn : (⟨.assistant, none, none, none, [.tool (sampleCall sampleOutput)]⟩ : Turn) ∈
      parseJcodeTranscript (fun _ => "") (loadSessionMessages sampleFromStr sampleFiles) := by
    rw [sample_turns]
    exact List.mem_singleton_self _
  have hresults : resultsOf (loadSessionMessages sampleFromStr sampleFiles) "t1" =
      [resultBlock sampleOutput] := by
    rw [sample_load]
    rfl
  obtain ⟨block, hblock, hsize, hhead, hfetched⟩ :=
    toolOutputByRef_of_part hturn (List.mem_singleton_self _) rfl
  refine ⟨block, hblock, hsize, hhead, hfetched (by decide) fun other hother => ?_⟩
  rw [hresults, List.mem_singleton] at hblock hother
  rw [hblock, hother]

/-- The size on the page is not the length of the output in bytes. -/
theorem sample_size_not_bytes :
    (⟨.assistant, none, none, none, [.tool (sampleCall sampleOutput)]⟩ : Turn) ∈
      parseJcodeTranscript (fun _ => "") (loadSessionMessages sampleFromStr sampleFiles) ∧
    (sampleCall sampleOutput).outputRef = some "t1" ∧
    (sampleCall sampleOutput).outputSize = some 4001 ∧
    ∃ text, toolOutputByRef sampleFromStr sampleFiles "t1" = some text ∧
      text.utf8ByteSize = 8002 := by
  refine ⟨?_, rfl, congrArg some sample_length, sampleOutput, ?_, ?_⟩
  · rw [sample_turns]
    exact List.mem_singleton_self _
  · have hshort : ¬sampleOutput.length > toolOutputMax := by
      simp [sample_length, toolOutputMax]
    rw [toolOutputByRef, if_pos (by decide), sample_load]
    change some (capToolOutput sampleOutput) = _
    rw [capToolOutput, if_neg hshort]
  · exact utf8ByteSize_replicated 4001 'é'

end Sample

end HerdrWebui.Transcript
