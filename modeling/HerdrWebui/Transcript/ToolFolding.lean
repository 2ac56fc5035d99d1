import HerdrWebui.Data.Calls
import HerdrWebui.Transcript.Parts

/-!
The tool calls of a conversation and their results. Every call has one part, in the order of
the calls, and the first later event that names its id decides what the part shows: a result
is folded into it, another call leaves it as it is, and with neither it is in flight.
-/

namespace HerdrWebui.Transcript

abbrev ToolEvent := CallEvent String JsonMap ToolResult

def callEvent (block : JsonMap) : Option ToolEvent :=
  if block.getStr "type" = some "tool_use" then some (.call (block.getStr "id") block) else none

def answerEvent (result : ToolResult) : ToolEvent := .answer result.id result

/-- The calls of an assistant message, or the results in a person's. -/
def messageEvents (message : Json) : List ToolEvent :=
  if isBookkeepingMessage message then []
  else
    match message.getStr "role" with
    | some "user" => ((objectBlocks message).filterMap toolResult).map answerEvent
    | some "assistant" => (objectBlocks message).filterMap callEvent
    | _ => []

def toolEvents (messages : List Json) : List ToolEvent := messages.flatMap messageEvents

def TurnPart.isTool : TurnPart → Bool
  | .tool _ | .toolPending _ | .decision _ => true
  | _ => false

/-- The parts of tool calls, in their order. -/
def toolParts (turns : List Turn) : List TurnPart :=
  (turns.flatMap (·.parts)).filter TurnPart.isTool

/-- A question to a person counts as the running row of its call. -/
def TurnPart.shown : TurnPart → TurnPart
  | .decision _ => .toolPending "ask_user"
  | part => part

/-- The part of a call while the messages are walked. -/
def foldedPart (render : Json → String) (c : Called String JsonMap ToolResult) : TurnPart :=
  match c.fate with
  | .answered result =>
    (TurnPart.tool (toolUse render c.call)).withResult result.id result.block result.isError
  | _ => .tool (toolUse render c.call)

def calledPart (render : Json → String) (c : Called String JsonMap ToolResult) : TurnPart :=
  match c.fate, c.id with
  | .waiting, some _ => .toolPending (toolUse render c.call).name
  | _, _ => foldedPart render c

abbrev PlacedPart := (Nat × Nat) × TurnPart

def placeParts (turnIdx partIdx : Nat) : List TurnPart → List PlacedPart
  | [] => []
  | part :: parts => ((turnIdx, partIdx), part) :: placeParts turnIdx (partIdx + 1) parts

def placeTurns (turnIdx : Nat) : List Turn → List PlacedPart
  | [] => []
  | turn :: turns => placeParts turnIdx 0 turn.parts ++ placeTurns (turnIdx + 1) turns

/-- The parts of tool calls with their places. -/
def placedTools (turns : List Turn) : List PlacedPart :=
  (placeTurns 0 turns).filter (·.2.isTool)

theorem placeParts_append (turnIdx partIdx : Nat) (parts more : List TurnPart) :
    placeParts turnIdx partIdx (parts ++ more) =
      placeParts turnIdx partIdx parts ++ placeParts turnIdx (partIdx + parts.length) more := by
  induction parts generalizing partIdx with
  | nil => rfl
  | cons part parts ih =>
    rw [List.cons_append, placeParts, placeParts, ih, List.length_cons, List.cons_append,
      Nat.add_assoc, Nat.add_comm 1]

theorem placeTurns_append (turnIdx : Nat) (turns more : List Turn) :
    placeTurns turnIdx (turns ++ more) =
      placeTurns turnIdx turns ++ placeTurns (turnIdx + turns.length) more := by
  induction turns generalizing turnIdx with
  | nil => rfl
  | cons turn turns ih =>
    rw [List.cons_append, placeTurns, placeTurns, ih, List.length_cons, List.append_assoc,
      Nat.add_assoc, Nat.add_comm 1]

theorem placeParts_map_snd (turnIdx partIdx : Nat) (parts : List TurnPart) :
    (placeParts turnIdx partIdx parts).map Prod.snd = parts := by
  induction parts generalizing partIdx with
  | nil => rfl
  | cons part parts ih => rw [placeParts, List.map_cons, ih]

theorem placeTurns_map_snd (turnIdx : Nat) (turns : List Turn) :
    (placeTurns turnIdx turns).map Prod.snd = turns.flatMap (·.parts) := by
  induction turns generalizing turnIdx with
  | nil => rfl
  | cons turn turns ih =>
    rw [placeTurns, List.map_append, ih, placeParts_map_snd, List.flatMap_cons]

theorem toolParts_eq (turns : List Turn) : toolParts turns = (placedTools turns).map Prod.snd := by
  rw [toolParts, placedTools, ← placeTurns_map_snd 0, List.filter_map]
  rfl

theorem getElem?_of_mem_placeParts {turnIdx partIdx : Nat} {parts : List TurnPart}
    {placed : PlacedPart} (h : placed ∈ placeParts turnIdx partIdx parts) :
    placed.1.1 = turnIdx ∧ partIdx ≤ placed.1.2 ∧
      parts[placed.1.2 - partIdx]? = some placed.2 := by
  induction parts generalizing partIdx with
  | nil => exact absurd h List.not_mem_nil
  | cons part parts ih =>
    rcases List.mem_cons.mp h with rfl | hmem
    · exact ⟨rfl, Nat.le_refl _, by simp⟩
    · obtain ⟨hturn, hle, hget⟩ := ih hmem
      refine ⟨hturn, Nat.le_of_succ_le hle, ?_⟩
      have hsub : placed.1.2 - partIdx = placed.1.2 - (partIdx + 1) + 1 := by omega
      rw [hsub, List.getElem?_cons_succ]
      exact hget

theorem getElem?_of_mem_placeTurns {turnIdx : Nat} {turns : List Turn} {placed : PlacedPart}
    (h : placed ∈ placeTurns turnIdx turns) :
    turnIdx ≤ placed.1.1 ∧
      partAt turns (placed.1.1 - turnIdx, placed.1.2) = some placed.2 := by
  induction turns generalizing turnIdx with
  | nil => exact absurd h List.not_mem_nil
  | cons turn turns ih =>
    rcases List.mem_append.mp h with hfirst | hrest
    · obtain ⟨hturn, -, hget⟩ := getElem?_of_mem_placeParts hfirst
      refine ⟨hturn.ge, ?_⟩
      rw [partAt, hturn, Nat.sub_self]
      exact hget
    · obtain ⟨hle, hget⟩ := ih hrest
      refine ⟨Nat.le_of_succ_le hle, ?_⟩
      have hsub : placed.1.1 - turnIdx = placed.1.1 - (turnIdx + 1) + 1 := by omega
      rw [partAt, hsub, List.getElem?_cons_succ]
      exact hget

theorem partAt_of_mem_placedTools {turns : List Turn} {placed : PlacedPart}
    (h : placed ∈ placedTools turns) : partAt turns placed.1 = some placed.2 :=
  (getElem?_of_mem_placeTurns (List.mem_of_mem_filter h)).2

def atPlace (place : Nat × Nat) (f : TurnPart → TurnPart) (placed : PlacedPart) : PlacedPart :=
  if placed.1 = place then (placed.1, f placed.2) else placed

section Updates

variable {turns : List Turn} {turnIdx partIdx : Nat} {f : TurnPart → TurnPart}

theorem map_atPlace_of_ne {place : Nat × Nat} {l : List PlacedPart}
    (h : ∀ placed ∈ l, placed.1 ≠ place) : l.map (atPlace place f) = l := by
  calc
    l.map (atPlace place f) = l.map id :=
      List.map_congr_left fun placed hmem => if_neg (h placed hmem)
    _ = l := List.map_id l

theorem placeParts_modify (start : Nat) (parts : List TurnPart) :
    placeParts turnIdx start (parts.modify partIdx f) =
      (placeParts turnIdx start parts).map (atPlace (turnIdx, start + partIdx) f) := by
  induction parts generalizing start partIdx with
  | nil =>
    rw [List.modify_nil]
    rfl
  | cons part parts ih =>
    cases partIdx with
    | zero =>
      rw [List.modify_zero_cons, placeParts, placeParts, List.map_cons, map_atPlace_of_ne]
      · simp [atPlace]
      · intro placed hmem heq
        have hle := (getElem?_of_mem_placeParts hmem).2.1
        rw [heq] at hle
        exact absurd hle (Nat.not_succ_le_self _)
    | succ partIdx =>
      rw [List.modify_succ_cons, placeParts, placeParts, List.map_cons, ih, Nat.add_assoc,
        Nat.add_comm 1]
      congr 1
      refine (if_neg fun heq => ?_).symm
      have hidx := congrArg Prod.snd heq
      dsimp only at hidx
      omega

theorem placeTurns_modifyPart (start : Nat) (turns : List Turn) :
    placeTurns start (modifyPart turns turnIdx partIdx f) =
      (placeTurns start turns).map (atPlace (start + turnIdx, partIdx) f) := by
  unfold modifyPart
  induction turns generalizing start turnIdx with
  | nil =>
    rw [List.modify_nil]
    rfl
  | cons turn turns ih =>
    cases turnIdx with
    | zero =>
      rw [List.modify_zero_cons, placeTurns, placeTurns, List.map_append, placeParts_modify,
        Nat.zero_add, Nat.add_zero]
      congr 1
      refine (map_atPlace_of_ne fun placed hmem heq => ?_).symm
      have hle := (getElem?_of_mem_placeTurns hmem).1
      rw [heq] at hle
      exact absurd hle (Nat.not_succ_le_self _)
    | succ turnIdx =>
      rw [List.modify_succ_cons, placeTurns, placeTurns, List.map_append, ih, Nat.add_assoc,
        Nat.add_comm 1]
      congr 1
      refine (map_atPlace_of_ne fun placed hmem heq => ?_).symm
      have hidx := (getElem?_of_mem_placeParts hmem).1
      rw [heq] at hidx
      dsimp only at hidx
      omega

theorem placedTools_modifyPart (hf : ∀ part, (f part).isTool = part.isTool) :
    placedTools (modifyPart turns turnIdx partIdx f) =
      (placedTools turns).map (atPlace (turnIdx, partIdx) f) := by
  have htool : ((·.2.isTool) ∘ atPlace (turnIdx, partIdx) f : PlacedPart → Bool) =
      (·.2.isTool) := by
    funext placed
    rw [Function.comp_apply, atPlace]
    split
    · exact hf placed.2
    · rfl
  rw [placedTools, placeTurns_modifyPart, Nat.zero_add, List.filter_map, htool, placedTools]

theorem placeTurns_modify {g : Turn → Turn} (hg : ∀ turn, (g turn).parts = turn.parts)
    (start : Nat) : placeTurns start (turns.modify turnIdx g) = placeTurns start turns := by
  induction turns generalizing start turnIdx with
  | nil => rw [List.modify_nil]
  | cons turn turns ih =>
    cases turnIdx with
    | zero => rw [List.modify_zero_cons, placeTurns, placeTurns, hg]
    | succ turnIdx => rw [List.modify_succ_cons, placeTurns, placeTurns, ih]

theorem placedTools_setEndTs (ts : Option String) :
    placedTools (setEndTs turns turnIdx ts) = placedTools turns := by
  unfold setEndTs
  split
  · rw [placedTools, placeTurns_modify]
    · rfl
    · exact fun _ => rfl
  · rfl

theorem placedTools_append {turn : Turn} (h : ∀ part ∈ turn.parts, part.isTool = false) :
    placedTools (turns ++ [turn]) = placedTools turns := by
  have hnone : (placeParts (0 + turns.length) 0 turn.parts).filter (·.2.isTool) = [] := by
    rw [List.filter_eq_nil_iff]
    intro placed hmem
    have hpart := List.mem_of_getElem? (getElem?_of_mem_placeParts hmem).2.2
    rw [h placed.2 hpart]
    exact Bool.false_ne_true
  rw [placedTools, placeTurns_append, List.filter_append, placeTurns, placeTurns,
    List.append_nil, hnone, List.append_nil, placedTools]

theorem placedTools_openTurn (message : Json) :
    placedTools (openTurn turns message) = placedTools turns := by
  unfold openTurn
  split
  · rfl
  · exact placedTools_append fun _ hmem => absurd hmem List.not_mem_nil

theorem placeTurns_pushPart {last : Turn} (before : List Turn) (part : TurnPart) :
    placeTurns 0 (pushPart (before ++ [last]) before.length part) =
      placeTurns 0 (before ++ [last]) ++ [((before.length, last.parts.length), part)] := by
  have hmodify : pushPart (before ++ [last]) before.length part =
      before ++ [{ last with parts := last.parts ++ [part] }] := by
    rw [pushPart, List.modify_eq_take_cons_drop]
    · simp
    · simp
  rw [hmodify, placeTurns_append, placeTurns_append, placeTurns, placeTurns, placeTurns,
    placeParts_append, Nat.zero_add]
  simp [placeParts, placeTurns]

theorem placedTools_pushPart {turn : Turn} (hlast : turnIdx + 1 = turns.length)
    (hturn : turns[turnIdx]? = some turn) (part : TurnPart) :
    placedTools (pushPart turns turnIdx part) =
      placedTools turns ++
        [((turnIdx, turn.parts.length), part)].filter (·.2.isTool) := by
  rcases List.eq_nil_or_concat turns with rfl | ⟨before, last, rfl⟩
  · cases hlast
  · rw [List.concat_eq_append, List.length_append, List.length_singleton] at hlast
    obtain rfl : turnIdx = before.length := Nat.succ.inj hlast
    rw [List.concat_eq_append, List.getElem?_concat_length] at hturn
    obtain rfl := Option.some.inj hturn
    rw [List.concat_eq_append, placedTools, placeTurns_pushPart, List.filter_append, placedTools]

theorem partAt_modifyPart_of_some {place : Nat × Nat} {part : TurnPart}
    (h : partAt turns place = some part) :
    ∃ part', partAt (modifyPart turns turnIdx partIdx f) place = some part' := by
  by_cases hplace : place = (turnIdx, partIdx)
  · obtain ⟨turn, hturn, hpart⟩ := partAt_eq_some h
    subst hplace
    refine ⟨f part, ?_⟩
    dsimp only at hturn hpart
    rw [partAt, modifyPart, List.getElem?_modify_eq, hturn]
    change (turn.parts.modify partIdx f)[partIdx]? = some (f part)
    rw [List.getElem?_modify_eq, hpart]
    rfl
  · exact ⟨part, (partAt_modifyPart hplace).trans h⟩

end Updates

/-- A part and the call it is of. -/
structure Matches (render : Json → String) (pending : List (String × Nat × Nat))
    (placed : PlacedPart) (c : Called String JsonMap ToolResult) : Prop where
  part : placed.2 = foldedPart render c
  waits : ∀ id, (id, placed.1) ∈ pending ↔ c.id = some id ∧ c.fate = .waiting

/-- The parts are those of the calls in the events so far, and the calls that wait are the
ones kept for results to come. -/
structure Folded (render : Json → String) (events : List ToolEvent) (s : ParseState) :
    Prop where
  parts : List.Forall₂ (Matches render s.pendingTools) (placedTools s.turns) (called events)
  keys : (s.pendingTools.map Prod.fst).Nodup
  places : ∀ entry ∈ s.pendingTools, ∃ part, partAt s.turns entry.2 = some part

section Walk

variable {render : Json → String} {events : List ToolEvent} {s : ParseState}

theorem isTool_withResult (id : String) (block : JsonMap) (isError : Bool) (part : TurnPart) :
    (part.withResult id block isError).isTool = part.isTool := by
  cases part <;> rfl

theorem Folded.of_turns {turns : List Turn} (h : Folded render events s)
    (htools : placedTools turns = placedTools s.turns) (hkeeps : Keeps s.turns turns) :
    Folded render events { s with turns := turns } := by
  refine ⟨?_, h.keys, fun entry hentry => ?_⟩
  · change List.Forall₂ _ (placedTools turns) _
    rw [htools]
    exact h.parts
  · obtain ⟨part, hpart⟩ := h.places entry hentry
    exact ⟨part, hkeeps _ _ hpart⟩

theorem foldedPart_answer {c : Called String JsonMap ToolResult} {result : ToolResult}
    (hid : c.id = some result.id) (hfate : c.fate = .waiting) :
    foldedPart render (c.answer result.id result) =
      (foldedPart render c).withResult result.id result.block result.isError := by
  rw [Called.answer, hfate, if_pos hid, foldedPart, foldedPart, hfate]

theorem Folded.answer (h : Folded render events s) (result : ToolResult) :
    Folded render (events ++ [answerEvent result]) (foldResult s result) := by
  have hcalled : called (events ++ [answerEvent result]) =
      (called events).map (Called.answer result.id result) :=
    called_append_answer events result.id result
  unfold foldResult
  split
  · next hnone =>
      refine ⟨?_, h.keys, h.places⟩
      rw [hcalled, List.forall₂_map_right_iff]
      refine h.parts.imp fun placed c hmatch => ?_
      have hother : c.answer result.id result = c := by
        unfold Called.answer
        split
        · next hfate =>
            refine if_neg fun hid => ?_
            have hmem := (hmatch.waits result.id).mpr ⟨hid, hfate⟩
            rw [(mem_iff_lookup h.keys).mp hmem] at hnone
            cases hnone
        · rfl
      rw [hother]
      exact hmatch
  · next turnIdx partIdx hfound =>
      have hmem := (mem_iff_lookup h.keys).mpr hfound
      have hplace {placed : PlacedPart} {c : Called String JsonMap ToolResult}
          (hmatch : Matches render s.pendingTools placed c) :
          placed.1 = (turnIdx, partIdx) ↔ c.id = some result.id ∧ c.fate = .waiting := by
        rw [← hmatch.waits]
        refine ⟨fun heq => heq ▸ hmem, fun hwaits => ?_⟩
        have hsame := (mem_iff_lookup h.keys).mp hwaits
        exact Option.some.inj (hsame.symm.trans hfound)
      refine ⟨?_, h.keys.sublist (List.filter_sublist.map _), fun entry hentry => ?_⟩
      · change List.Forall₂ _ (placedTools (modifyPart _ _ _ _)) _
        rw [placedTools_modifyPart (isTool_withResult _ _ _), hcalled,
          List.forall₂_map_left_iff, List.forall₂_map_right_iff]
        refine h.parts.imp fun placed c hmatch => ?_
        by_cases hwaits : c.id = some result.id ∧ c.fate = .waiting
        · refine ⟨?_, fun id => ?_⟩
          · rw [atPlace, if_pos ((hplace hmatch).mpr hwaits),
              foldedPart_answer hwaits.1 hwaits.2, ← hmatch.part]
          · rw [atPlace, if_pos ((hplace hmatch).mpr hwaits), List.mem_filter, hmatch.waits,
              Called.answer, hwaits.2, hwaits.1]
            simp
            exact Eq.symm
        · have hsame : c.answer result.id result = c := by
            unfold Called.answer
            split
            · next hfate => exact if_neg fun hid => hwaits ⟨hid, hfate⟩
            · rfl
          rw [atPlace, if_neg (mt (hplace hmatch).mp hwaits), hsame]
          refine ⟨hmatch.part, fun id => ?_⟩
          rw [List.mem_filter, hmatch.waits, decide_eq_true_iff]
          refine ⟨fun hboth => hboth.1, fun hboth => ⟨hboth, fun heq => hwaits ?_⟩⟩
          exact heq ▸ hboth
      · obtain ⟨part, hpart⟩ := h.places entry (List.mem_of_mem_filter hentry)
        exact partAt_modifyPart_of_some hpart

theorem mem_insertKey {α : Type} {key other : String} {value value' : α}
    {entries : List (String × α)} :
    (other, value') ∈ insertKey key value entries ↔
      (other = key ∧ value' = value) ∨ ((other, value') ∈ entries ∧ other ≠ key) := by
  rw [insertKey, List.mem_cons, Prod.mk.injEq, List.mem_filter, decide_eq_true_iff]

theorem foldedPart_supersede (id : Option String) (c : Called String JsonMap ToolResult) :
    foldedPart render (c.supersede id) = foldedPart render c := by
  unfold Called.supersede
  split
  · next hfate =>
      split
      · rw [foldedPart, foldedPart, hfate]
      · rfl
  · rfl

theorem supersede_waiting {id : Option String} {c : Called String JsonMap ToolResult}
    {id' : String} :
    (c.supersede id).id = some id' ∧ (c.supersede id).fate = .waiting ↔
      (c.id = some id' ∧ c.fate = .waiting) ∧ id ≠ some id' := by
  unfold Called.supersede
  split
  · next hfate =>
      split
      · next hsame =>
          obtain ⟨-, rfl⟩ := hsame
          simp only [reduceCtorEq, and_false, false_iff, not_and, not_not]
          exact fun hboth => hboth.1
      · next hother =>
          refine ⟨fun hboth => ⟨hboth, fun hid => hother ?_⟩, fun hboth => hboth.1⟩
          rw [hboth.1, hid]
          exact ⟨rfl, rfl⟩
  · next hfate =>
      exact iff_of_false (fun hboth => hfate hboth.2) fun hboth => hfate hboth.1.2

theorem Folded.call {turnIdx : Nat} {block : JsonMap} (h : Folded render events s)
    (hlast : turnIdx + 1 = s.turns.length) :
    Folded render (events ++ [.call (block.getStr "id") block])
      (pushToolUse render s turnIdx block) := by
  have hlt : turnIdx < s.turns.length := by omega
  have hturn : s.turns[turnIdx]? = some s.turns[turnIdx] := List.getElem?_eq_getElem hlt
  set turn := s.turns[turnIdx]
  set place := (turnIdx, turn.parts.length) with hplace
  have hfresh : partAt s.turns place = none := by
    rw [partAt, hturn, Option.bind_some]
    exact List.getElem?_length _
  have hpushed : placedTools (pushPart s.turns turnIdx (.tool (toolUse render block))) =
      placedTools s.turns ++ [(place, .tool (toolUse render block))] :=
    placedTools_pushPart hlast hturn _
  have hunknown (id : String) : (id, place) ∉ s.pendingTools := by
    intro hmem
    obtain ⟨part, hpart⟩ := h.places _ hmem
    rw [hfresh] at hpart
    cases hpart
  have hother {placed : PlacedPart} (hmem : placed ∈ placedTools s.turns) :
      placed.1 ≠ place := by
    intro heq
    have hpart := partAt_of_mem_placedTools hmem
    rw [heq, hfresh] at hpart
    cases hpart
  have hold := (List.forall₂_and_left (p := fun placed : PlacedPart => placed.1 ≠ place)
    _ _).mpr ⟨fun _ => hother, h.parts⟩
  have hkept (entry : String × Nat × Nat) (hentry : entry ∈ s.pendingTools) :
      ∃ part, partAt (pushPart s.turns turnIdx (.tool (toolUse render block))) entry.2 =
        some part := by
    obtain ⟨part, hpart⟩ := h.places entry hentry
    exact ⟨part, keeps_pushPart _ _ _ hpart⟩
  unfold pushToolUse
  dsimp only
  cases hid : block.getStr "id" with
  | none =>
    refine ⟨?_, h.keys, hkept⟩
    dsimp only
    rw [hpushed, called_append_call]
    refine List.rel_append ?_ (.cons ?_ .nil)
    · rw [List.forall₂_map_right_iff]
      refine h.parts.imp fun placed c hmatch => ⟨?_, fun id => ?_⟩
      · rw [foldedPart_supersede]
        exact hmatch.part
      · rw [supersede_waiting, hmatch.waits]
        simp
    · refine ⟨rfl, fun id => ?_⟩
      simp [hunknown]
  | some id =>
    rw [hturn, Option.map_some, Option.getD_some]
    refine ⟨?_, nodup_keys_insertKey h.keys, fun entry hentry => ?_⟩
    · dsimp only
      rw [hpushed, called_append_call]
      refine List.rel_append ?_ (.cons ?_ .nil)
      · rw [List.forall₂_map_right_iff]
        refine hold.imp fun placed c hboth => ⟨?_, fun id' => ?_⟩
        · rw [foldedPart_supersede]
          exact hboth.2.part
        · rw [supersede_waiting, mem_insertKey, hboth.2.waits]
          simp [← hplace, hboth.1, eq_comm]
      · refine ⟨rfl, fun id' => ?_⟩
        rw [mem_insertKey]
        simp [← hplace, hunknown, eq_comm]
    · rcases List.mem_cons.mp hentry with rfl | hmem
      · exact ⟨_, partAt_pushPart hturn _⟩
      · exact hkept entry (List.mem_of_mem_filter hmem)

theorem Folded.answers (h : Folded render events s) (results : List ToolResult) :
    Folded render (events ++ results.map answerEvent) (results.foldl foldResult s) := by
  induction results generalizing events s with
  | nil =>
    rw [List.map_nil, List.append_nil]
    exact h
  | cons result results ih =>
    have hrest := ih (h.answer result)
    rw [List.append_assoc] at hrest
    exact hrest

theorem isTool_userParts {id : Option String} {images : List (String × String)}
    {texts : List String} {part : TurnPart} (h : part ∈ userParts id images texts) :
    part.isTool = false := by
  rcases mem_userParts h with ⟨image, -, refId, rfl⟩ | ⟨text, rfl⟩
  · rfl
  · rfl

theorem Folded.user (h : Folded render events s) (message : Json) {blocks : List Json} :
    Folded render
      (events ++ ((blocks.filterMap Json.asObject).filterMap toolResult).map answerEvent)
      (userMessage s message blocks) := by
  have hresults := h.answers ((blocks.filterMap Json.asObject).filterMap toolResult)
  unfold userMessage
  dsimp only
  split
  · exact hresults
  · exact hresults.of_turns (placedTools_append fun _ => isTool_userParts) (keeps_append _ _)

theorem Folded.push {turnIdx : Nat} {part : TurnPart} (h : Folded render events s)
    (hlast : turnIdx + 1 = s.turns.length) (htool : part.isTool = false) :
    Folded render events { s with turns := pushPart s.turns turnIdx part } := by
  have hlt : turnIdx < s.turns.length := by omega
  refine h.of_turns ?_ (keeps_pushPart part)
  rw [placedTools_pushPart hlast (List.getElem?_eq_getElem hlt), List.filter_cons_of_neg,
    List.filter_nil, List.append_nil]
  rw [htool]
  exact Bool.false_ne_true

theorem Folded.block {turnIdx : Nat} (h : Folded render events s)
    (hlast : turnIdx + 1 = s.turns.length) (block : JsonMap) :
    Folded render (events ++ (callEvent block).toList)
      (assistantBlock render turnIdx s block) := by
  unfold assistantBlock callEvent
  split
  · exact h.call hlast
  · rw [Option.toList_none, List.append_nil]
    split
    · exact h.push hlast rfl
    · exact h.push hlast rfl
    · exact h

theorem Folded.assistant (h : Folded render events s) (message : Json) {blocks : List Json} :
    Folded render (events ++ (blocks.filterMap Json.asObject).filterMap callEvent)
      (assistantMessage render s message blocks) := by
  set turns := openTurn s.turns message
  set turnIdx := turns.length - 1
  have hopened : Folded render events
      { s with turns := setEndTs turns turnIdx (messageTs message) } := by
    refine h.of_turns ?_ fun place part hpart => ?_
    · rw [placedTools_setEndTs]
      exact placedTools_openTurn message
    · exact keeps_setEndTs _ _ _ (keeps_openTurn message _ _ hpart)
  have hlast : turnIdx + 1 = (setEndTs turns turnIdx (messageTs message)).length := by
    rw [length_setEndTs]
    exact openTurn_last message
  unfold assistantMessage
  dsimp only
  generalize blocks.filterMap Json.asObject = objects
  have hfold (events : List ToolEvent) (s : ParseState) (hs : Folded render events s)
      (hs' : turnIdx + 1 = s.turns.length) :
      Folded render (events ++ objects.filterMap callEvent)
        (objects.foldl (assistantBlock render turnIdx) s) := by
    induction objects generalizing events s with
    | nil =>
      rw [List.filterMap_nil, List.append_nil]
      exact hs
    | cons block objects ih =>
      have hrest := ih _ _ (hs.block hs' block) (by rw [length_assistantBlock]; exact hs')
      rw [List.append_assoc] at hrest
      rw [List.foldl_cons, List.filterMap_cons]
      cases hevent : callEvent block with
      | none =>
        rw [hevent] at hrest
        exact hrest
      | some event =>
        rw [hevent] at hrest
        exact hrest
  exact hfold events _ hopened hlast

theorem messageEvents_of_none {message : Json} (h : contentBlocks message = none) :
    messageEvents message = [] := by
  unfold messageEvents objectBlocks
  rw [h]
  split
  · rfl
  · split
    · rfl
    · rfl
    · rfl

theorem message_of_other_role {message : Json} (huser : message.getStr "role" ≠ some "user")
    (hassistant : message.getStr "role" ≠ some "assistant") :
    messageEvents message = [] ∧ parseMessage render s message = s := by
  constructor
  · unfold messageEvents
    split
    · rfl
    · split
      · next hrole => exact absurd hrole huser
      · next hrole => exact absurd hrole hassistant
      · rfl
  · unfold parseMessage
    split
    · rfl
    · split
      · rfl
      · split
        · next hrole => exact absurd hrole huser
        · next hrole => exact absurd hrole hassistant
        · rfl

theorem Folded.message (h : Folded render events s) (message : Json) :
    Folded render (events ++ messageEvents message) (parseMessage render s message) := by
  by_cases hother : message.getStr "role" ≠ some "user" ∧ message.getStr "role" ≠ some "assistant"
  · obtain ⟨hevents, hparse⟩ := message_of_other_role hother.1 hother.2
    rw [hevents, hparse, List.append_nil]
    exact h
  unfold parseMessage
  cases hblocks : contentBlocks message with
  | none =>
    rw [messageEvents_of_none hblocks, List.append_nil]
    exact h
  | some blocks =>
    unfold messageEvents objectBlocks
    rw [hblocks]
    dsimp only [Option.getD_some]
    split
    · rw [List.append_nil]
      exact h
    · by_cases huser : message.getStr "role" = some "user"
      · rw [huser]
        exact h.user message
      · by_cases hassistant : message.getStr "role" = some "assistant"
        · rw [hassistant]
          exact h.assistant message
        · exact absurd ⟨huser, hassistant⟩ hother

theorem walkMessages_folded (render : Json → String) (messages : List Json) :
    Folded render (toolEvents messages) (walkMessages render messages) := by
  induction messages using List.reverseRecOn with
  | nil => exact ⟨.nil, List.nodup_nil, fun _ hmem => absurd hmem List.not_mem_nil⟩
  | append_singleton messages message ih =>
    have hstep := ih.message message
    rw [toolEvents, List.flatMap_append, walkMessages, List.foldl_append]
    rw [List.flatMap_singleton]
    exact hstep

theorem isTool_settlePart (turnIdx partIdx : Nat) (part : TurnPart) :
    (settlePart s turnIdx partIdx part).isTool = part.isTool := by
  unfold settlePart
  split
  · dsimp only
    split
    · rfl
    · rfl
  · rfl

theorem settlePart_tool (turnIdx partIdx : Nat) (call : ToolCall) :
    (∃ payload, call.name = "ask_user" ∧
        settlePart s turnIdx partIdx (.tool call) = .decision payload) ∨
      settlePart s turnIdx partIdx (.tool call) = .toolPending call.name := by
  unfold settlePart
  dsimp only
  by_cases hname : call.name = "ask_user"
  · rw [if_pos hname]
    split
    · exact .inl ⟨_, hname, rfl⟩
    · exact .inr rfl
  · rw [if_neg hname]
    exact .inr rfl

theorem settlePart_settlePart (turnIdx partIdx : Nat) (part : TurnPart) :
    settlePart s turnIdx partIdx (settlePart s turnIdx partIdx part) =
      settlePart s turnIdx partIdx part := by
  cases part with
  | tool call =>
    rcases settlePart_tool (s := s) turnIdx partIdx call with ⟨payload, -, heq⟩ | heq
    · rw [heq]
      rfl
    · rw [heq]
      rfl
  | _ => rfl

theorem shown_settlePart (turnIdx partIdx : Nat) (call : ToolCall) :
    (settlePart s turnIdx partIdx (.tool call)).shown = .toolPending call.name := by
  rcases settlePart_tool (s := s) turnIdx partIdx call with ⟨payload, hname, heq⟩ | heq
  · rw [heq, hname]
    rfl
  · rw [heq]
    rfl

/-- A part settled, if its place is among some. -/
def settlePlaced (s : ParseState) (places : List (Nat × Nat)) (placed : PlacedPart) :
    PlacedPart :=
  if placed.1 ∈ places then (placed.1, settlePart s placed.1.1 placed.1.2 placed.2) else placed

theorem placedTools_foldl_settle (entries : List (String × Nat × Nat)) (turns : List Turn) :
    placedTools (entries.foldl (fun turns entry =>
        modifyPart turns entry.2.1 entry.2.2 (settlePart s entry.2.1 entry.2.2)) turns) =
      (placedTools turns).map (settlePlaced s (entries.map Prod.snd)) := by
  induction entries generalizing turns with
  | nil =>
    have hnone : settlePlaced s [] = id := funext fun placed => if_neg List.not_mem_nil
    rw [List.foldl_nil, List.map_nil, hnone, List.map_id]
  | cons entry entries ih =>
    rw [List.foldl_cons, ih, placedTools_modifyPart fun part => isTool_settlePart _ _ part,
      List.map_map]
    apply List.map_congr_left
    intro placed _
    rw [Function.comp_apply, atPlace, List.map_cons]
    by_cases hplace : placed.1 = entry.2
    · obtain ⟨place, part⟩ := placed
      dsimp only at hplace
      subst hplace
      rw [if_pos rfl]
      unfold settlePlaced
      dsimp only
      rw [settlePart_settlePart, if_pos List.mem_cons_self]
      split
      · rfl
      · rfl
    · rw [if_neg hplace]
      unfold settlePlaced
      simp only [List.mem_cons, hplace, false_or]

theorem toolParts_filter (turns : List Turn) :
    toolParts (turns.filter (!·.parts.isEmpty)) = toolParts turns := by
  induction turns with
  | nil => rfl
  | cons turn turns ih =>
    unfold toolParts at ih ⊢
    rw [List.filter_cons, List.flatMap_cons, List.filter_append]
    cases hempty : turn.parts.isEmpty with
    | false =>
      rw [Bool.not_false, if_pos rfl, List.flatMap_cons, List.filter_append, ih]
    | true =>
      rw [Bool.not_true, if_neg Bool.false_ne_true, ih, List.isEmpty_iff.mp hempty]
      rfl

theorem Matches.settled {placed : PlacedPart} {c : Called String JsonMap ToolResult}
    (h : Matches render s.pendingTools placed c) :
    (settlePlaced s (s.pendingTools.map Prod.snd) placed).2.shown = calledPart render c := by
  have hplaces : placed.1 ∈ s.pendingTools.map Prod.snd ↔
      ∃ id, c.id = some id ∧ c.fate = .waiting := by
    rw [List.mem_map]
    constructor
    · rintro ⟨⟨id, place⟩, hmem, rfl⟩
      exact ⟨id, (h.waits id).mp hmem⟩
    · rintro ⟨id, hwaits⟩
      exact ⟨_, (h.waits id).mpr hwaits, rfl⟩
  unfold settlePlaced calledPart
  split
  · next hmem =>
      obtain ⟨id, hid, hfate⟩ := hplaces.mp hmem
      rw [hid, hfate, h.part, foldedPart, hfate]
      exact shown_settlePart _ _ _
  · next hmem =>
      rw [h.part]
      split
      · next id hfate hid => exact absurd (hplaces.mpr ⟨_, hid, hfate⟩) hmem
      · unfold foldedPart
        split
        · rfl
        · rfl

/-- The transcript has one part for each call, in the order of the calls, which shows what
became of it: the first later event with its id is a result, and the result is folded in;
it is another call, and the part stays as it is; there is none, and the call is in flight.
No result is in two parts. -/
theorem toolParts_parse (render : Json → String) (messages : List Json) :
    (toolParts (parseJcodeTranscript render messages)).map TurnPart.shown =
        (called (toolEvents messages)).map (calledPart render) ∧
      (takenAnswers (called (toolEvents messages))).Subperm
        ((toolEvents messages).filterMap CallEvent.asAnswer) := by
  refine ⟨?_, takenAnswers_subperm _⟩
  have hfolded := walkMessages_folded render messages
  rw [parseJcodeTranscript, toolParts_filter, toolParts_eq, settleInflight,
    placedTools_foldl_settle, List.map_map, List.map_map]
  have hshown : List.Forall₂ Eq _ _ :=
    List.rel_map (fun _ _ hmatch => Matches.settled hmatch) hfolded.parts
  rw [List.forall₂_eq_eq_eq] at hshown
  exact hshown

end Walk

/-- Whether a result that comes later has the id of each call. -/
def unansweredCalls : List ToolEvent → List Bool
  | [] => []
  | .call id _ :: rest =>
    (!rest.any fun event => id.any event.names && event.asAnswer.isSome) ::
      unansweredCalls rest
  | .answer _ _ :: rest => unansweredCalls rest

def TurnPart.isPending : TurnPart → Bool
  | .toolPending _ => true
  | _ => false

/-- The first of two calls with one id and no result is not in flight. -/
theorem toolParts_repeated :
    ¬∀ (render : Json → String) (messages : List Json),
      (toolParts (parseJcodeTranscript render messages)).map (·.shown.isPending) =
        unansweredCalls (toolEvents messages) := by
  intro h
  have hsame := h (fun _ => "")
    [.object [("role", .string "assistant"), ("content", .array [
      .object [("type", .string "tool_use"), ("id", .string "t"), ("name", .string "bash")],
      .object [("type", .string "tool_use"), ("id", .string "t"), ("name", .string "bash")]])]]
  exact absurd hsame (by decide +kernel)

end HerdrWebui.Transcript
