import HerdrWebui.Transcript.Turns

/-!
What holds of every part of a transcript: it holds of the parts a message makes, results
folded into a part keep it, and so does the settling of the calls in flight. A result is
folded into a part that has none yet: the calls without a result are in places of their
own, and a place is given up once its result has come.
-/

namespace HerdrWebui.Transcript

theorem mem_modify {α : Type} {f : α → α} {l : List α} {i : Nat} {x : α}
    (h : x ∈ l.modify i f) : x ∈ l ∨ ∃ y, l[i]? = some y ∧ x = f y := by
  obtain ⟨j, hj⟩ := List.mem_iff_getElem?.mp h
  rw [List.getElem?_modify, Option.map_eq_map, Option.map_eq_some_iff] at hj
  obtain ⟨y, hy, hx⟩ := hj
  split at hx
  · next hij =>
      subst hij
      exact .inr ⟨y, hy, hx.symm⟩
  · obtain rfl : y = x := hx
    exact .inl (List.mem_of_getElem? hy)

/-- The part at a place: the turn, and the part in it. -/
def partAt (turns : List Turn) (place : Nat × Nat) : Option TurnPart :=
  turns[place.1]?.bind (·.parts[place.2]?)

def Keeps (turns turns' : List Turn) : Prop :=
  ∀ place part, partAt turns place = some part → partAt turns' place = some part

def TurnPart.Untrimmed : TurnPart → Prop
  | .tool call => call.outputRef = none
  | _ => True

/-- The calls without a result have places of their own, and untrimmed parts there. -/
structure PendingOpen (turns : List Turn) (pending : List (String × Nat × Nat)) : Prop where
  untrimmed : ∀ entry ∈ pending, ∃ part, partAt turns entry.2 = some part ∧ part.Untrimmed
  places : (pending.map Prod.snd).Nodup

section Places

variable {turns turns' : List Turn} {turnIdx partIdx : Nat}
  {pending : List (String × Nat × Nat)}

theorem partAt_eq_some {place : Nat × Nat} {part : TurnPart}
    (h : partAt turns place = some part) :
    ∃ turn, turns[place.1]? = some turn ∧ turn.parts[place.2]? = some part :=
  Option.bind_eq_some_iff.mp h

theorem Keeps.refl (turns : List Turn) : Keeps turns turns := fun _ _ h => h

theorem keeps_append (turns more : List Turn) : Keeps turns (turns ++ more) := by
  intro place part h
  obtain ⟨turn, hturn, hpart⟩ := partAt_eq_some h
  have hlt := (List.getElem?_eq_some_iff.mp hturn).1
  rw [partAt, List.getElem?_append_left hlt, hturn]
  exact hpart

theorem keeps_openTurn (message : Json) : Keeps turns (openTurn turns message) := by
  unfold openTurn
  split
  · exact .refl _
  · exact keeps_append _ _

theorem keeps_modify {f : Turn → Turn} (hf : ∀ turn, turn.parts <+: (f turn).parts) :
    Keeps turns (turns.modify turnIdx f) := by
  intro place part h
  obtain ⟨turn, hturn, hpart⟩ := partAt_eq_some h
  rw [partAt, List.getElem?_modify, hturn, Option.map_eq_map, Option.map_some,
    Option.bind_some]
  split
  · obtain ⟨hlt, hget⟩ := List.getElem?_eq_some_iff.mp hpart
    rw [List.prefix_iff_getElem?.mp (hf turn) _ hlt, hget]
  · exact hpart

theorem keeps_setEndTs (ts : Option String) : Keeps turns (setEndTs turns turnIdx ts) := by
  unfold setEndTs
  split
  · exact keeps_modify fun _ => List.prefix_rfl
  · exact .refl _

theorem keeps_pushPart (part : TurnPart) : Keeps turns (pushPart turns turnIdx part) :=
  keeps_modify fun _ => List.prefix_append _ _

theorem partAt_modifyPart {f : TurnPart → TurnPart} {place : Nat × Nat}
    (h : place ≠ (turnIdx, partIdx)) :
    partAt (modifyPart turns turnIdx partIdx f) place = partAt turns place := by
  rw [partAt, partAt, modifyPart, List.getElem?_modify]
  cases turns[place.1]? with
  | none => rfl
  | some turn =>
    rw [Option.map_eq_map, Option.map_some, Option.bind_some, Option.bind_some]
    split
    · next hturn =>
        have hother : partIdx ≠ place.2 := by
          rintro rfl
          exact h (Prod.ext hturn.symm rfl)
        exact List.getElem?_modify_ne f turn.parts hother
    · rfl

theorem partAt_pushPart {turn : Turn} (hturn : turns[turnIdx]? = some turn)
    (part : TurnPart) :
    partAt (pushPart turns turnIdx part) (turnIdx, turn.parts.length) = some part := by
  rw [partAt, pushPart, List.getElem?_modify_eq, hturn]
  exact List.getElem?_concat_length

namespace PendingOpen

theorem keeps (h : PendingOpen turns pending) (hkeeps : Keeps turns turns') :
    PendingOpen turns' pending where
  untrimmed entry hentry := by
    obtain ⟨part, hpart, hopen⟩ := h.untrimmed entry hentry
    exact ⟨part, hkeeps _ _ hpart, hopen⟩
  places := h.places

theorem resolve {id : String} {place : Nat × Nat} {f : TurnPart → TurnPart}
    (h : PendingOpen turns pending) (hmem : (id, place) ∈ pending) :
    PendingOpen (modifyPart turns place.1 place.2 f) (pending.filter (·.1 ≠ id)) where
  untrimmed entry hentry := by
    obtain ⟨hold, hid⟩ := List.mem_filter.mp hentry
    obtain ⟨part, hpart, hopen⟩ := h.untrimmed entry hold
    refine ⟨part, ?_, hopen⟩
    have hplace : entry.2 ≠ place := by
      intro heq
      obtain rfl := List.inj_on_of_nodup_map h.places hold hmem heq
      simp at hid
    rw [partAt_modifyPart hplace]
    exact hpart
  places := h.places.sublist (List.filter_sublist.map _)

theorem push {turn : Turn} {id : String} {part : TurnPart} (h : PendingOpen turns pending)
    (hturn : turns[turnIdx]? = some turn) (hopen : part.Untrimmed) :
    PendingOpen (pushPart turns turnIdx part)
      (insertKey id (turnIdx, turn.parts.length) pending) where
  untrimmed entry hentry := by
    rcases List.mem_cons.mp hentry with rfl | hold
    · exact ⟨part, partAt_pushPart hturn part, hopen⟩
    · exact (h.keeps (keeps_pushPart part)).untrimmed entry (List.mem_of_mem_filter hold)
  places := by
    rw [insertKey, List.map_cons, List.nodup_cons]
    refine ⟨fun hmem => ?_, h.places.sublist (List.filter_sublist.map _)⟩
    obtain ⟨entry, hentry, hplace⟩ := List.mem_map.mp hmem
    obtain ⟨other, hother, -⟩ := h.untrimmed entry (List.mem_of_mem_filter hentry)
    rw [hplace, partAt, hturn, Option.bind_some, List.getElem?_length] at hother
    cases hother

end PendingOpen

end Places

def AllParts (P : TurnPart → Prop) (turns : List Turn) : Prop :=
  ∀ turn ∈ turns, ∀ part ∈ turn.parts, P part

/-- The objects among the blocks of a message. -/
def objectBlocks (message : Json) : List JsonMap :=
  ((contentBlocks message).getD []).filterMap Json.asObject

/-- A message a person sent: it is not bookkeeping. -/
def isUserMessage (message : Json) : Bool :=
  message.getStr "role" == some "user" && !isBookkeepingMessage message

/-- What the steps of the walk over the messages keep of the parts. -/
structure PartsKept (render : Json → String) (P : TurnPart → Prop) (messages : List Json) :
    Prop where
  user : ∀ message ∈ messages, isUserMessage message = true → ∀ texts,
    ∀ part ∈ userParts (messageId message) (userImageRefs message) texts, P part
  result : ∀ message ∈ messages, ∀ result ∈ (objectBlocks message).filterMap toolResult,
    ∀ part, part.Untrimmed → P part →
      P (part.withResult result.id result.block result.isError)
  text : ∀ text, P (.text text)
  thinking : ∀ text, P (.thinking text)
  tool : ∀ block, P (.tool (toolUse render block))
  pending : ∀ name, P (.toolPending name)
  decision : ∀ payload, P (.decision payload)

theorem mem_userParts {id : Option String} {images : List (String × String)}
    {texts : List String} {part : TurnPart} (h : part ∈ userParts id images texts) :
    (∃ image ∈ images, ∃ refId, part = .image image.1 refId) ∨ ∃ text, part = .text text := by
  rcases List.mem_append.mp h with himage | htext
  · obtain ⟨image, hmem, hid⟩ := List.mem_filterMap.mp himage
    obtain ⟨refId, -, rfl⟩ := Option.map_eq_some_iff.mp hid
    exact .inl ⟨image, hmem, refId, rfl⟩
  · split at htext
    · exact absurd htext List.not_mem_nil
    · exact .inr ⟨_, List.mem_singleton.mp htext⟩

namespace AllParts

variable {P : TurnPart → Prop} {turns : List Turn} {turnIdx partIdx : Nat}

theorem append {turn : Turn} (h : AllParts P turns) (hnew : ∀ part ∈ turn.parts, P part) :
    AllParts P (turns ++ [turn]) := by
  intro other hother
  rcases List.mem_append.mp hother with hold | hlast
  · exact h other hold
  · obtain rfl := List.mem_singleton.mp hlast
    exact hnew

theorem modifyPart {f : TurnPart → TurnPart} (h : AllParts P turns)
    (hf : ∀ part, partAt turns (turnIdx, partIdx) = some part → P part → P (f part)) :
    AllParts P (modifyPart turns turnIdx partIdx f) := by
  intro turn hturn part hpart
  rcases mem_modify hturn with hold | ⟨before, hbefore, rfl⟩
  · exact h turn hold part hpart
  · have hparts := h before (List.mem_of_getElem? hbefore)
    rcases mem_modify hpart with hsame | ⟨before', hbefore', rfl⟩
    · exact hparts part hsame
    · refine hf before' ?_ (hparts before' (List.mem_of_getElem? hbefore'))
      rw [partAt, hbefore]
      exact hbefore'

theorem modify {f : Turn → Turn} (h : AllParts P turns)
    (hf : ∀ turn, (∀ part ∈ turn.parts, P part) → ∀ part ∈ (f turn).parts, P part) :
    AllParts P (turns.modify turnIdx f) := by
  intro turn hturn
  rcases mem_modify hturn with hold | ⟨before, hbefore, rfl⟩
  · exact h turn hold
  · exact hf before (h before (List.mem_of_getElem? hbefore))

theorem pushPart {part : TurnPart} (h : AllParts P turns) (hnew : P part) :
    AllParts P (pushPart turns turnIdx part) := by
  apply h.modify
  intro turn hparts other hother
  rcases List.mem_append.mp hother with hold | hlast
  · exact hparts other hold
  · obtain rfl := List.mem_singleton.mp hlast
    exact hnew

theorem setEndTs {ts : Option String} (h : AllParts P turns) :
    AllParts P (setEndTs turns turnIdx ts) := by
  unfold Transcript.setEndTs
  split
  · exact h.modify fun _ hparts => hparts
  · exact h

theorem openTurn {message : Json} (h : AllParts P turns) :
    AllParts P (openTurn turns message) := by
  unfold Transcript.openTurn
  split
  · exact h
  · exact h.append fun _ hpart => absurd hpart List.not_mem_nil

end AllParts

/-- What the walk keeps: `P` of the parts, and the places of the calls without a result. -/
structure WalkKept (P : TurnPart → Prop) (s : ParseState) : Prop where
  parts : AllParts P s.turns
  waiting : PendingOpen s.turns s.pendingTools

section Walk

variable {render : Json → String} {P : TurnPart → Prop} {messages : List Json}
  {s : ParseState} {message : Json} {blocks : List Json}

theorem foldResult_kept {result : ToolResult} (h : WalkKept P s)
    (hresult : ∀ part, part.Untrimmed → P part →
      P (part.withResult result.id result.block result.isError)) :
    WalkKept P (foldResult s result) := by
  unfold foldResult
  split
  · exact h
  · next turnIdx partIdx hfound =>
      obtain ⟨before, after, hsplit, -⟩ := List.lookup_eq_some_iff.mp hfound
      have hmem : (result.id, turnIdx, partIdx) ∈ s.pendingTools := by
        rw [hsplit]
        exact List.mem_append_right _ List.mem_cons_self
      obtain ⟨call, hcall, huntrimmed⟩ := h.waiting.untrimmed _ hmem
      refine ⟨h.parts.modifyPart fun part hpart => ?_, h.waiting.resolve hmem⟩
      obtain rfl : call = part := Option.some.inj (hcall.symm.trans hpart)
      exact hresult call huntrimmed

theorem userMessage_kept (hkept : PartsKept render P messages) (hmem : message ∈ messages)
    (huser : isUserMessage message = true) (hblocks : contentBlocks message = some blocks)
    (h : WalkKept P s) : WalkKept P (userMessage s message blocks) := by
  have hresults : WalkKept P
      (((blocks.filterMap Json.asObject).filterMap toolResult).foldl foldResult s) := by
    apply List.foldlRecOn (motive := WalkKept P) _ _ h
    intro s hs result hresult
    refine foldResult_kept hs (hkept.result message hmem result ?_)
    rw [objectBlocks, hblocks, Option.getD_some]
    exact hresult
  unfold userMessage
  dsimp only
  split
  · exact hresults
  · exact ⟨hresults.parts.append (hkept.user message hmem huser _),
      hresults.waiting.keeps (keeps_append _ _)⟩

theorem pushToolUse_kept {turnIdx : Nat} {block : JsonMap} (hkept : PartsKept render P messages)
    (hturn : turnIdx < s.turns.length) (h : WalkKept P s) :
    WalkKept P (pushToolUse render s turnIdx block) := by
  have hfound : s.turns[turnIdx]? = some s.turns[turnIdx] := List.getElem?_eq_getElem hturn
  have hparts : AllParts P (pushPart s.turns turnIdx (.tool (toolUse render block))) :=
    h.parts.pushPart (hkept.tool block)
  unfold pushToolUse
  dsimp only
  split
  · exact ⟨hparts, h.waiting.keeps (keeps_pushPart _)⟩
  · refine ⟨hparts, ?_⟩
    rw [hfound, Option.map_some, Option.getD_some]
    exact h.waiting.push hfound rfl

theorem assistantBlock_kept {turnIdx : Nat} {block : JsonMap}
    (hkept : PartsKept render P messages) (hturn : turnIdx < s.turns.length)
    (h : WalkKept P s) : WalkKept P (assistantBlock render turnIdx s block) := by
  unfold assistantBlock
  split
  · exact pushToolUse_kept hkept hturn h
  · split
    · exact ⟨h.parts.pushPart (hkept.text _), h.waiting.keeps (keeps_pushPart _)⟩
    · exact ⟨h.parts.pushPart (hkept.thinking _), h.waiting.keeps (keeps_pushPart _)⟩
    · exact h

theorem assistantMessage_kept (hkept : PartsKept render P messages) (h : WalkKept P s) :
    WalkKept P (assistantMessage render s message blocks) := by
  set turns := openTurn s.turns message with hturns
  set turnIdx := turns.length - 1 with hidx
  have hopened : WalkKept P
      { s with turns := setEndTs turns turnIdx (messageTs message) } :=
    ⟨h.parts.openTurn.setEndTs,
      (h.waiting.keeps (keeps_openTurn message)).keeps (keeps_setEndTs _)⟩
  have hlast : turnIdx < (setEndTs turns turnIdx (messageTs message)).length := by
    rw [length_setEndTs, ← openTurn_last message]
    exact Nat.lt_succ_self _
  have hfold : WalkKept P (assistantMessage render s message blocks) ∧
      turnIdx < (assistantMessage render s message blocks).turns.length := by
    unfold assistantMessage
    dsimp only
    apply List.foldlRecOn
      (motive := fun s : ParseState => WalkKept P s ∧ turnIdx < s.turns.length)
    · exact ⟨hopened, hlast⟩
    · intro s hs block _
      refine ⟨assistantBlock_kept hkept hs.2 hs.1, ?_⟩
      rw [length_assistantBlock]
      exact hs.2
  exact hfold.1

theorem parseMessage_kept (hkept : PartsKept render P messages)
    (hmem : message ∈ messages) (h : WalkKept P s) :
    WalkKept P (parseMessage render s message) := by
  unfold parseMessage
  split
  · exact h
  · next blocks hblocks =>
      split
      · exact h
      · next hperson =>
          split
          · next hrole =>
              refine userMessage_kept hkept hmem ?_ hblocks h
              simp [isUserMessage, hrole, hperson]
          · exact assistantMessage_kept hkept h
          · exact h

theorem settlePart_kept {turnIdx partIdx : Nat} {part : TurnPart}
    (hkept : PartsKept render P messages) (h : P part) :
    P (settlePart s turnIdx partIdx part) := by
  unfold settlePart
  split
  · dsimp only
    split
    · exact hkept.decision _
    · exact hkept.pending _
  · exact h

theorem PartsKept.parse (hkept : PartsKept render P messages) :
    AllParts P (parseJcodeTranscript render messages) := by
  have hwalk : WalkKept P (walkMessages render messages) := by
    unfold walkMessages
    apply List.foldlRecOn (motive := WalkKept P)
    · exact ⟨fun _ hmem => absurd hmem List.not_mem_nil,
        fun _ hmem => absurd hmem List.not_mem_nil, List.nodup_nil⟩
    · exact fun s hs message hmem => parseMessage_kept hkept hmem hs
  have hsettled : AllParts P (settleInflight (walkMessages render messages)) := by
    apply List.foldlRecOn (motive := AllParts P) _ _ hwalk.parts
    exact fun turns hturns entry _ => hturns.modifyPart fun _ _ => settlePart_kept hkept
  intro turn hturn
  exact hsettled turn (List.mem_of_mem_filter hturn)

end Walk

end HerdrWebui.Transcript
