import HerdrWebui.Data.Growth
import HerdrWebui.Transcript.Turns

/-!
What a longer session keeps of the turns of a shorter one. A message appends turns and
parts to the last turn; a result changes a part and counts none.
-/

namespace HerdrWebui.Transcript

def Turn.key (turn : Turn) : TurnRole × Option String := (turn.role, turn.messageId)

/-- The keys of the turns and how many parts they have. -/
def shape (turns : List Turn) : List ((TurnRole × Option String) × Nat) :=
  turns.map fun turn => (turn.key, turn.parts.length)

theorem modify_concat {α : Type} (init : List α) (x : α) (f : α → α) :
    (init ++ [x]).modify init.length f = init ++ [f x] := by
  induction init with
  | nil => rfl
  | cons y init ih => rw [List.cons_append, List.length_cons, List.modify_succ_cons, ih]; rfl

section Shape

variable {turns : List Turn} {turnIdx partIdx : Nat}

theorem shape_modifyPart (f : TurnPart → TurnPart) :
    shape (modifyPart turns turnIdx partIdx f) = shape turns := by
  refine map_modify_of_comp (fun turn => ?_) _ _
  rw [List.length_modify]
  rfl

theorem shape_setEndTs (ts : Option String) :
    shape (setEndTs turns turnIdx ts) = shape turns := by
  unfold setEndTs
  split
  · exact map_modify_of_comp (fun turn => by cases turn; rfl) _ _
  · rfl

theorem shape_append (more : List Turn) : Grows (shape turns) (shape (turns ++ more)) := by
  rw [shape, shape, List.map_append]
  exact .append _ _

theorem shape_pushPart (part : TurnPart) (hlast : turnIdx + 1 = turns.length) :
    Grows (shape turns) (shape (pushPart turns turnIdx part)) := by
  obtain ⟨init, turn, rfl⟩ := turns.eq_nil_or_concat.resolve_left (by rintro rfl; simp at hlast)
  obtain rfl : turnIdx = init.length := by simpa using hlast
  rw [pushPart, List.concat_eq_append, modify_concat, shape, shape, List.map_append,
    List.map_append]
  have hparts : (turn.parts ++ [part]).length = turn.parts.length + 1 := by simp
  simp only [List.map_cons, List.map_nil, hparts]
  exact .count_up _ _ _

theorem openTurn_grows (message : Json) :
    Grows (shape turns) (shape (openTurn turns message)) := by
  unfold openTurn
  split
  · exact .refl _
  · exact shape_append _

end Shape

section Walk

variable {render : Json → String} {s : ParseState} {message : Json} {blocks : List Json}
  {turnIdx : Nat}

theorem foldResult_shape (result : ToolResult) :
    shape (foldResult s result).turns = shape s.turns := by
  unfold foldResult
  split
  · rfl
  · exact shape_modifyPart _

theorem foldResults_shape (results : List ToolResult) :
    shape (results.foldl foldResult s).turns = shape s.turns := by
  induction results generalizing s with
  | nil => rfl
  | cons result results ih => rw [List.foldl_cons, ih, foldResult_shape]

theorem userMessage_grows :
    Grows (shape s.turns) (shape (userMessage s message blocks).turns) := by
  unfold userMessage
  dsimp only
  split
  · rw [foldResults_shape]
    exact .refl _
  · rw [← foldResults_shape ((blocks.filterMap Json.asObject).filterMap toolResult)]
    exact shape_append _

theorem assistantBlock_grows (render : Json → String) (block : JsonMap)
    (hlast : turnIdx + 1 = s.turns.length) :
    Grows (shape s.turns) (shape (assistantBlock render turnIdx s block).turns) := by
  unfold assistantBlock
  split
  · unfold pushToolUse
    dsimp only
    split
    · exact shape_pushPart _ hlast
    · exact shape_pushPart _ hlast
  · split
    · exact shape_pushPart _ hlast
    · exact shape_pushPart _ hlast
    · exact .refl _

theorem assistantBlocks_grows (render : Json → String) (s : ParseState)
    (objects : List JsonMap) (hlast : turnIdx + 1 = s.turns.length) :
    Grows (shape s.turns)
      (shape (objects.foldl (assistantBlock render turnIdx) s).turns) := by
  induction objects generalizing s with
  | nil => exact .refl _
  | cons block objects ih =>
    refine (assistantBlock_grows render block hlast).trans (ih _ ?_)
    rw [length_assistantBlock]
    exact hlast

theorem assistantMessage_grows :
    Grows (shape s.turns) (shape (assistantMessage render s message blocks).turns) := by
  unfold assistantMessage
  dsimp only
  apply (openTurn_grows message).trans
  have hlast : (openTurn s.turns message).length - 1 + 1 =
      (setEndTs (openTurn s.turns message) ((openTurn s.turns message).length - 1)
        (messageTs message)).length := by
    rw [length_setEndTs]
    exact openTurn_last message
  have hblocks := assistantBlocks_grows render
    ⟨setEndTs (openTurn s.turns message) ((openTurn s.turns message).length - 1)
      (messageTs message), s.pendingTools, s.pendingDecisions⟩
    (blocks.filterMap Json.asObject) hlast
  rw [shape_setEndTs] at hblocks
  exact hblocks

theorem parseMessage_grows :
    Grows (shape s.turns) (shape (parseMessage render s message).turns) := by
  unfold parseMessage
  split
  · exact .refl _
  · split
    · exact .refl _
    · split
      · exact userMessage_grows
      · exact assistantMessage_grows
      · exact .refl _

theorem walk_grows (messages : List Json) :
    Grows (shape s.turns) (shape (messages.foldl (parseMessage render) s).turns) := by
  induction messages generalizing s with
  | nil => exact .refl _
  | cons message messages ih => exact parseMessage_grows.trans ih

theorem settleInflight_shape : shape (settleInflight s) = shape s.turns := by
  unfold settleInflight
  generalize hturns : s.turns = turns
  have hfold (entries : List (String × Nat × Nat)) (turns : List Turn) :
      shape (entries.foldl (fun turns entry =>
        modifyPart turns entry.2.1 entry.2.2 (settlePart s entry.2.1 entry.2.2)) turns) =
        shape turns := by
    induction entries generalizing turns with
    | nil => rfl
    | cons entry entries ih => rw [List.foldl_cons, ih, shape_modifyPart]
  exact hfold _ _

theorem parse_keys (messages : List Json) :
    (parseJcodeTranscript render messages).map Turn.key =
      ((shape (walkMessages render messages).turns).filter (0 < ·.2)).map Prod.fst := by
  rw [← settleInflight_shape, parseJcodeTranscript, shape, List.filter_map, List.map_map]
  congr 1
  apply List.filter_congr
  intro turn _
  cases hparts : turn.parts <;> simp [hparts]

end Walk

/-- The turns of a session stay what they are when messages are appended. -/
theorem transcript_append_only (render : Json → String) (messages more : List Json) :
    (parseJcodeTranscript render messages).map (fun turn => (turn.role, turn.messageId)) <+:
      (parseJcodeTranscript render (messages ++ more)).map
        fun turn => (turn.role, turn.messageId) := by
  change (parseJcodeTranscript render messages).map Turn.key <+:
    (parseJcodeTranscript render (messages ++ more)).map Turn.key
  rw [parse_keys, parse_keys, walkMessages, walkMessages, List.foldl_append]
  exact (walk_grows more).isPrefix_counted

end HerdrWebui.Transcript
