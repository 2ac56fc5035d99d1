import HerdrWebui.Data.Paging
import HerdrWebui.Transcript.Parts

/-!
The pages of a conversation. A page has at most `pageTurns` turns; its cursor names the
message that opened its first turn, and the next older page ends before that turn. The
summary of a compacted session leads its turns. The title, the model and the usage of a
session are read beside the page and are left out.
-/

namespace HerdrWebui.Transcript

def pageTurns : Nat := 100

/-- The debug text of the modification time and the length of a file, if it has them. -/
def debugStat : Option (Nat × Nat) → String
  | none => "None"
  | some (mtime, len) => "Some((" ++ toString mtime ++ ", " ++ toString len ++ "))"

def fnv1a (hash : UInt64) (bytes : List UInt8) : UInt64 :=
  bytes.foldl (fun hash byte => (hash ^^^ byte.toUInt64) * 0x100000001b3) hash

def hex16 (n : Nat) : String :=
  String.ofList ((List.range 16).reverse.map fun i => Nat.digitChar (n >>> (4 * i) % 16))

structure Session where
  id : String
  files : SessionFiles
  /-- The modification time and the length of the snapshot. -/
  snapshotStat : Option (Nat × Nat)
  journalStat : Option (Nat × Nat)

def Session.generation (session : Session) : String :=
  let hash := [session.snapshotStat, session.journalStat].foldl
    (fun hash stat => fnv1a hash (debugStat stat).toUTF8.data.toList) 0xcbf29ce484222325
  "g" ++ hex16 hash.toNat

structure Cursor where
  sessionId : String
  generation : String
  messageId : String
  deriving DecidableEq

def Cursor.encode (cursor : Cursor) : String :=
  cursor.sessionId ++ ":" ++ cursor.generation ++ ":" ++ cursor.messageId

/-- The generation is not compared: an append changes it. -/
def Cursor.decode (cursor sessionId : String) : Option Cursor :=
  match splitn 3 ':' cursor with
  | [session, generation, message] =>
    if session ≠ sessionId then none
    else if !validToolRef message then none
    else some ⟨session, generation, message⟩
  | _ => none

structure ConversationPage where
  /-- The cursor of the turn the page ends before. -/
  before : Option String
  /-- The cursor of the oldest turn the chat holds. -/
  from_ : Option String

structure ConversationPayload where
  sessionId : String
  turns : List Turn
  cursor : Option String
  version : String
  deriving DecidableEq

def decodeParam (sessionId : String) : Option String → Except String (Option Cursor)
  | none => .ok none
  | some raw =>
    match Cursor.decode raw sessionId with
    | some cursor => .ok (some cursor)
    | none => .error "history_changed: cursor names another session"

def turnPosition (turns : List Turn) (cursor : Cursor) : Except String Nat :=
  match turns.findIdx? fun turn => turn.messageId == some cursor.messageId with
  | some pos => .ok pos
  | none => .error "history_changed: cursor message no longer in the transcript"

/-- The page that ends at `cut`, of the turns from `start` on. -/
def cutPage (session : Session) (turns : List Turn) (cut start : Nat) : ConversationPayload :=
  let pageLen := min (cut - start) pageTurns
  let start := cut - pageLen
  let page := (turns.take cut).drop start
  { sessionId := session.id
    turns := page
    cursor :=
      if start > 0 then
        (page.head?.bind (·.messageId)).map fun messageId =>
          Cursor.encode ⟨session.id, session.generation, messageId⟩
      else none
    version := session.generation }

def compactTurn (summary : String) : Turn := ⟨.user, none, none, none, [.compact summary]⟩

section Payload

variable (fromStr : String → Option Json) (render : Json → String)

/-- The turns of a session, led by the summary of what was compacted. -/
def conversationTurns (files : SessionFiles) : List Turn :=
  let turns := parseJcodeTranscript render (loadSessionMessages fromStr files)
  match loadCompaction fromStr files with
  | some summary => compactTurn summary :: turns
  | none => turns

/-- Nothing was read, and neither file can be. -/
def transcriptMissing (files : SessionFiles) : Bool :=
  (loadSessionMessages fromStr files).isEmpty && (loadCompaction fromStr files).isNone &&
    (files.snapshot.bind fromStr).isNone && !files.journalReadable

def conversationPayload (session : Session) (page : ConversationPage) :
    Except String ConversationPayload := do
  let before ← decodeParam session.id page.before
  let from_ ← decodeParam session.id page.from_
  if before.isSome && from_.isSome then
    .error "history_changed: before and from cursors are mutually exclusive"
  else if transcriptMissing fromStr session.files then
    .error "transcript_missing: session files are unreadable"
  else do
    let turns := conversationTurns fromStr render session.files
    let cut ← match before with
      | some before => turnPosition turns before
      | none => .ok turns.length
    let start ← match from_ with
      | some cursor => (turnPosition turns cursor).map fun pos => if pos < cut then pos else 0
      | none => .ok 0
    .ok (cutPage session turns cut start)

/-- What a chat gets that asks for the page before a cursor, or for the newest. -/
def requestPage (session : Session) (before : Option String) :
    Option (List Turn × Option String) :=
  match conversationPayload fromStr render session ⟨before, none⟩ with
  | .ok payload => some (payload.turns, payload.cursor)
  | .error _ => none

end Payload

theorem colon_not_mem_hex16 (n : Nat) : ':' ∉ (hex16 n).toList := by
  have hdigit : ∀ n < 16, Nat.digitChar n ≠ ':' := by decide
  rw [hex16, String.toList_ofList, List.mem_map]
  rintro ⟨i, -, hi⟩
  exact hdigit _ (Nat.mod_lt _ (by decide)) hi

theorem colon_not_mem_generation (session : Session) : ':' ∉ session.generation.toList := by
  rw [Session.generation, String.toList_append, List.mem_append, not_or]
  exact ⟨by decide, colon_not_mem_hex16 _⟩

theorem splitn_encode {cursor : Cursor} (hsession : ':' ∉ cursor.sessionId.toList)
    (hgeneration : ':' ∉ cursor.generation.toList) :
    splitn 3 ':' cursor.encode = [cursor.sessionId, cursor.generation, cursor.messageId] := by
  have hchars : cursor.encode.toList = cursor.sessionId.toList ++ ':' ::
      (cursor.generation.toList ++ ':' :: cursor.messageId.toList) := by
    simp [Cursor.encode]
  rw [splitn, hchars, splitnChars_append 1 _ hsession, splitnChars_append 0 _ hgeneration,
    splitnChars]
  simp

theorem decode_encode {cursor : Cursor} (hsession : ':' ∉ cursor.sessionId.toList)
    (hgeneration : ':' ∉ cursor.generation.toList)
    (hvalid : validToolRef cursor.messageId = true) :
    Cursor.decode cursor.encode cursor.sessionId = some cursor := by
  rw [Cursor.decode, splitn_encode hsession hgeneration]
  dsimp only
  rw [if_neg (not_not_intro rfl), hvalid]
  rfl

/-- The cursor of a session whose id has a colon is read as another session's. -/
theorem decode_eq_none {sessionId : String} (hsession : ':' ∈ sessionId.toList)
    (cursor : String) : Cursor.decode cursor sessionId = none := by
  unfold Cursor.decode
  split
  · next session generation message hpieces =>
      have hother : session ≠ sessionId := by
        rintro rfl
        rw [splitn, List.map_eq_cons_iff] at hpieces
        obtain ⟨piece, rest, hchars, rfl, -⟩ := hpieces
        have hpiece := splitnChars_head? ':' 1 cursor.toList
        rw [hchars, List.head?_cons, Option.some_inj] at hpiece
        rw [String.toList_ofList, hpiece] at hsession
        exact not_mem_takeWhile_ne ':' _ hsession
      rw [if_pos hother]
  · rfl

/-- The ids of the messages that opened the turns. -/
def turnIds (turns : List Turn) : List String := turns.filterMap (·.messageId)

section Ids

variable {render : Json → String} {s : ParseState} {message : Json} {turns : List Turn}
  {turnIdx : Nat}

theorem turnIds_modify {f : Turn → Turn} (hf : ∀ turn, (f turn).messageId = turn.messageId) :
    turnIds (turns.modify turnIdx f) = turnIds turns := filterMap_modify_of_comp hf _ _

theorem turnIds_modifyPart {partIdx : Nat} {f : TurnPart → TurnPart} :
    turnIds (modifyPart turns turnIdx partIdx f) = turnIds turns := turnIds_modify fun _ => rfl

theorem turnIds_concat (turn : Turn) :
    turnIds (turns ++ [turn]) = turnIds turns ++ turn.messageId.toList := by
  rw [turnIds, turnIds, List.filterMap_append]
  cases hid : turn.messageId with
  | none => rw [List.filterMap_cons_none hid]; rfl
  | some id => rw [List.filterMap_cons_some hid]; rfl

theorem turnIds_foldResult (result : ToolResult) :
    turnIds (foldResult s result).turns = turnIds s.turns := by
  unfold foldResult
  split
  · rfl
  · exact turnIds_modify fun _ => rfl

theorem turnIds_assistantBlock (block : JsonMap) :
    turnIds (assistantBlock render turnIdx s block).turns = turnIds s.turns := by
  unfold assistantBlock
  split
  · unfold pushToolUse
    dsimp only
    split
    · exact turnIds_modify fun _ => rfl
    · exact turnIds_modify fun _ => rfl
  · split
    · exact turnIds_modify fun _ => rfl
    · exact turnIds_modify fun _ => rfl
    · rfl

theorem turnIds_setEndTs (ts : Option String) :
    turnIds (setEndTs turns turnIdx ts) = turnIds turns := by
  unfold setEndTs
  split
  · exact turnIds_modify fun _ => rfl
  · rfl

theorem turnIds_openTurn (message : Json) :
    (turnIds (openTurn turns message)).Sublist
      (turnIds turns ++ (messageId message).toList) := by
  unfold openTurn
  split
  · exact List.sublist_append_left _ _
  · rw [turnIds_concat]

theorem turnIds_parseMessage :
    (turnIds (parseMessage render s message).turns).Sublist
      (turnIds s.turns ++ (messageId message).toList) := by
  have hsame : (turnIds s.turns).Sublist (turnIds s.turns ++ (messageId message).toList) :=
    List.sublist_append_left _ _
  unfold parseMessage
  split
  · exact hsame
  · next blocks _ =>
      split
      · exact hsame
      · split
        · have hresults : turnIds (((blocks.filterMap Json.asObject).filterMap
              toolResult).foldl foldResult s).turns = turnIds s.turns := by
            apply List.foldlRecOn (motive := fun s' : ParseState => turnIds s'.turns =
              turnIds s.turns)
            · rfl
            · exact fun s' hs' result _ => (turnIds_foldResult result).trans hs'
          unfold userMessage
          dsimp only
          split
          · rw [hresults]
            exact hsame
          · rw [turnIds_concat, hresults]
        · have hblocks : turnIds (assistantMessage render s message blocks).turns =
              turnIds (openTurn s.turns message) := by
            unfold assistantMessage
            dsimp only
            apply List.foldlRecOn (motive := fun s' : ParseState => turnIds s'.turns =
              turnIds (openTurn s.turns message))
            · exact turnIds_setEndTs _
            · exact fun s' hs' block _ => (turnIds_assistantBlock block).trans hs'
          rw [hblocks]
          exact turnIds_openTurn message
        · exact hsame

theorem turnIds_walk (messages : List Json) :
    (turnIds (messages.foldl (parseMessage render) s).turns).Sublist
      (turnIds s.turns ++ messages.filterMap messageId) := by
  induction messages generalizing s with
  | nil => exact List.sublist_append_left _ _
  | cons message messages ih =>
    have hids : (message :: messages).filterMap messageId =
        (messageId message).toList ++ messages.filterMap messageId := by
      cases hid : messageId message with
      | none => rw [List.filterMap_cons_none hid]; rfl
      | some id => rw [List.filterMap_cons_some hid]; rfl
    rw [hids, ← List.append_assoc]
    exact ih.trans (turnIds_parseMessage.append_right _)

theorem turnIds_settleInflight : turnIds (settleInflight s) = turnIds s.turns := by
  unfold settleInflight
  apply List.foldlRecOn (motive := fun turns => turnIds turns = turnIds s.turns)
  · rfl
  · intro turns hturns entry _
    exact turnIds_modifyPart.trans hturns

theorem turnIds_parse (messages : List Json) :
    (turnIds (parseJcodeTranscript render messages)).Sublist
      (messages.filterMap messageId) := by
  have hkept : (turnIds (parseJcodeTranscript render messages)).Sublist
      (turnIds (settleInflight (walkMessages render messages))) :=
    List.filter_sublist.filterMap _
  rw [turnIds_settleInflight] at hkept
  exact hkept.trans (turnIds_walk messages)

end Ids

theorem messageIds_nodup {messages : List Json} (h : DistinctIds messages) :
    (messages.filterMap messageId).Nodup := by
  have hids : messages.filterMap messageId = (messages.filterMap rawId).filter validToolRef := by
    rw [List.filter_filterMap]
    rfl
  rw [hids]
  exact h.filter _

variable {fromStr : String → Option Json} {render : Json → String} {session : Session}

theorem turnIds_conversationTurns :
    (turnIds (conversationTurns fromStr render session.files)).Nodup := by
  have hparsed : (turnIds (parseJcodeTranscript render
      (loadSessionMessages fromStr session.files))).Nodup :=
    (messageIds_nodup (loadSessionMessages_distinctIds fromStr session.files)).sublist
      (turnIds_parse _)
  unfold conversationTurns
  dsimp only
  split
  · exact hparsed
  · exact hparsed

/-- The cursor for the turn at an index, if the turn has an id. -/
def markAt (session : Session) (turns : List Turn) (index : Nat) : Option String :=
  (turns[index]?.bind (·.messageId)).map fun messageId =>
    Cursor.encode ⟨session.id, session.generation, messageId⟩

theorem cutPage_eq (turns : List Turn) (cut : Nat) :
    ((cutPage session turns cut 0).turns, (cutPage session turns cut 0).cursor) =
      pageBelow pageTurns (markAt session turns) turns cut := by
  have hstart : cut - min (cut - 0) pageTurns = cut - pageTurns := by omega
  rw [cutPage, pageBelow, hstart]
  dsimp only
  apply congrArg (Prod.mk _)
  by_cases hzero : cut - pageTurns = 0
  · rw [if_pos hzero, if_neg (by omega)]
  · have hpage : ((turns.take cut).drop (cut - pageTurns)).head? = turns[cut - pageTurns]? := by
      have hlt : cut - pageTurns < cut := by
        rw [pageTurns] at hzero ⊢
        omega
      rw [List.head?_drop, List.getElem?_take_of_lt hlt]
    rw [if_neg hzero, if_pos (Nat.pos_of_ne_zero hzero), hpage, markAt]

theorem findIdx?_id {turns : List Turn} {index : Nat} {turn : Turn} {id : String}
    (hids : (turnIds turns).Nodup) (hturn : turns[index]? = some turn)
    (hid : turn.messageId = some id) :
    turns.findIdx? (fun turn => turn.messageId == some id) = some index := by
  obtain ⟨hlt, hget⟩ := List.getElem?_eq_some_iff.mp hturn
  refine List.findIdx?_eq_some_iff_getElem.mpr ⟨hlt, ?_, fun j hj => ?_⟩
  · rw [hget, hid]
    exact beq_self_eq_true _
  · intro hsame
    have hsplit : turns = turns.take index ++ turn :: turns.drop (index + 1) := by
      rw [← hget, List.cons_getElem_drop_succ, List.take_append_drop]
    rw [hsplit, turnIds, List.filterMap_append, List.filterMap_cons_some hid,
      List.nodup_middle, List.nodup_cons, List.mem_append, not_or] at hids
    refine hids.1.1 (List.mem_filterMap.mpr ⟨turns[j], ?_, beq_iff_eq.mp hsame⟩)
    exact List.mem_take_iff_getElem.mpr ⟨j, by omega, rfl⟩

theorem requestPage_newest (hread : transcriptMissing fromStr session.files = false) :
    requestPage fromStr render session none =
      some (pageBelow pageTurns
        (markAt session (conversationTurns fromStr render session.files))
        (conversationTurns fromStr render session.files)
        (conversationTurns fromStr render session.files).length) := by
  rw [← cutPage_eq, requestPage, conversationPayload]
  simp only [decodeParam, hread, bind, Except.bind]
  rfl

theorem requestPage_older {raw : String} {cursor : Cursor} {index : Nat}
    (hread : transcriptMissing fromStr session.files = false)
    (hdecode : Cursor.decode raw session.id = some cursor)
    (hfound : turnPosition (conversationTurns fromStr render session.files) cursor =
      .ok index) :
    requestPage fromStr render session (some raw) =
      some (pageBelow pageTurns
        (markAt session (conversationTurns fromStr render session.files))
        (conversationTurns fromStr render session.files) index) := by
  rw [← cutPage_eq, requestPage, conversationPayload]
  simp only [decodeParam, hdecode, hread, hfound, bind, Except.bind]
  rfl

theorem requestPage_refused {raw : String} (hdecode : Cursor.decode raw session.id = none) :
    requestPage fromStr render session (some raw) = none := by
  rw [requestPage, conversationPayload]
  simp only [decodeParam, hdecode, bind, Except.bind]

theorem requestPage_missing (hmissing : transcriptMissing fromStr session.files = true) :
    requestPage fromStr render session none = none := by
  rw [requestPage, conversationPayload]
  simp only [decodeParam, hmissing, bind, Except.bind]
  rfl

theorem valid_of_mem_turnIds {id : String}
    (hid : id ∈ turnIds (conversationTurns fromStr render session.files)) :
    validToolRef id = true := by
  have hparsed : id ∈ turnIds (parseJcodeTranscript render
      (loadSessionMessages fromStr session.files)) := by
    unfold conversationTurns at hid
    dsimp only at hid
    split at hid
    · exact hid
    · exact hid
  obtain ⟨message, -, hmessage⟩ := List.mem_filterMap.mp ((turnIds_parse _).subset hparsed)
  exact (messageId_eq_some hmessage).2

theorem requestPage_serves (render : Json → String)
    (hread : transcriptMissing fromStr session.files = false) :
    Serves (requestPage fromStr render session) pageTurns
      (markAt session (conversationTurns fromStr render session.files))
      (conversationTurns fromStr render session.files) (':' ∉ session.id.toList) where
  size_pos := by decide
  newest := requestPage_newest hread
  older := by
    intro start key _ hmark hsession
    obtain ⟨id, hid, rfl⟩ := Option.map_eq_some_iff.mp hmark
    obtain ⟨turn, hturn, hmessage⟩ := Option.bind_eq_some_iff.mp hid
    have hmem : id ∈ turnIds (conversationTurns fromStr render session.files) :=
      List.mem_filterMap.mpr ⟨turn, List.mem_of_getElem? hturn, hmessage⟩
    refine requestPage_older hread
      (decode_encode hsession (colon_not_mem_generation session) (valid_of_mem_turnIds hmem)) ?_
    rw [turnPosition, findIdx?_id turnIds_conversationTurns hturn hmessage]
  refused := by
    intro start key _ _ hsession
    exact requestPage_refused (decode_eq_none (not_not.mp hsession) key)

/-- The turns that pages start at have an id. -/
def PagesMarked (turns : List Turn) : Prop :=
  ∀ k, 0 < k → pageTurns * k < turns.length →
    (turns[turns.length - pageTurns * k]?.bind (·.messageId)).isSome

def PagesReachable (session : Session) (turns : List Turn) : Prop :=
  PagesMarked turns ∧ (turns.length ≤ pageTurns ∨ ':' ∉ session.id.toList)

theorem complete_iff_pagesReachable {turns : List Turn} :
    Complete pageTurns (markAt session turns) (':' ∉ session.id.toList) turns.length ↔
      PagesReachable session turns := by
  simp only [Complete, Marked, PagesReachable, PagesMarked, markAt, Option.isSome_map]

/-- Following the cursors from the newest page gives all turns exactly if the transcript is
there and every older page can be asked for. -/
theorem conversation_pages_iff (fromStr : String → Option Json) (render : Json → String)
    (session : Session) :
    (∃ fuel pages, follow (requestPage fromStr render session) fuel none = some pages ∧
        pages.reverse.flatten = conversationTurns fromStr render session.files) ↔
      transcriptMissing fromStr session.files = false ∧
        PagesReachable session (conversationTurns fromStr render session.files) := by
  cases hread : transcriptMissing fromStr session.files with
  | true =>
    constructor
    · rintro ⟨fuel, pages, hfollow, -⟩
      cases fuel with
      | zero => cases hfollow
      | succ fuel =>
        rw [follow, requestPage_missing hread] at hfollow
        cases hfollow
    · rintro ⟨habsurd, -⟩
      cases habsurd
  | false =>
    rw [(requestPage_serves render hread).follow_iff, complete_iff_pagesReachable]
    exact ⟨fun h => ⟨rfl, h⟩, fun h => h.2⟩

def NotCompact : TurnPart → Prop
  | .compact _ => False
  | _ => True

theorem notCompact_kept (render : Json → String) (messages : List Json) :
    PartsKept render NotCompact messages where
  user message _ _ texts part hpart := by
    rcases mem_userParts hpart with ⟨image, -, refId, rfl⟩ | ⟨text, rfl⟩
    · exact trivial
    · exact trivial
  result _ _ result _ part _ h := by
    cases part with
    | compact => exact h
    | _ => exact trivial
  text _ := trivial
  thinking _ := trivial
  tool _ := trivial
  pending _ := trivial
  decision _ := trivial

theorem compactTurn_not_mem (render : Json → String) (messages : List Json)
    (summary : String) : compactTurn summary ∉ parseJcodeTranscript render messages := by
  intro hmem
  exact (notCompact_kept render messages).parse _ hmem (.compact summary)
    (List.mem_singleton_self _)

/-- The summary is on one page, and the oldest turn comes after it there. -/
def LeadDelivered (fromStr : String → Option Json) (render : Json → String)
    (session : Session) (summary : String) : Prop :=
  ∃ fuel pages, follow (requestPage fromStr render session) fuel none = some pages ∧
    ∃ page, pages.filter (compactTurn summary ∈ ·) = [page] ∧
      ∀ oldest, (parseJcodeTranscript render
          (loadSessionMessages fromStr session.files)).head? = some oldest →
        [compactTurn summary, oldest] <+: page

section Lead

variable {lead : Turn} {turns : List Turn} {pages : List (List Turn)}

theorem lead_page {size : Nat} (hlead : lead ∉ turns)
    (h : Delivers size (lead :: turns) (lead :: turns).length pages) :
    pages.filter (lead ∈ ·) = [(lead :: turns).take (turns.length % size + 1)] := by
  obtain ⟨newer, rfl, hnewer⟩ := h.oldest (Nat.succ_pos _)
  have hlast : lastPage size (lead :: turns).length = turns.length % size + 1 := rfl
  rw [hlast] at hnewer ⊢
  have hnone : newer.filter (lead ∈ ·) = [] := by
    refine List.filter_eq_nil_iff.mpr fun page hpage hmem => hlead ?_
    exact List.mem_of_mem_drop (hnewer page hpage (of_decide_eq_true hmem))
  rw [List.filter_append, hnone, List.nil_append, List.filter_singleton]
  simp

theorem lead_not_delivered {start : Nat} (hlead : lead ∉ turns) (hpos : 0 < start)
    (h : pages.reverse.flatten = ((lead :: turns).take (lead :: turns).length).drop start) :
    ∀ page ∈ pages, lead ∉ page := by
  intro page hpage hmem
  have hflat : lead ∈ pages.reverse.flatten :=
    List.mem_flatten.mpr ⟨page, List.mem_reverse.mpr hpage, hmem⟩
  obtain ⟨start, rfl⟩ := Nat.exists_eq_succ_of_ne_zero hpos.ne'
  rw [h, List.take_length, List.drop_succ_cons] at hflat
  exact hlead (List.mem_of_mem_drop hflat)

theorem lead_with_oldest_iff (lead : Turn) {size : Nat} :
    (∀ oldest, turns.head? = some oldest →
        [lead, oldest] <+: (lead :: turns).take (turns.length % size + 1)) ↔
      turns = [] ∨ turns.length % size ≠ 0 := by
  cases turns with
  | nil => simp
  | cons oldest rest =>
    cases hlength : (oldest :: rest).length % size with
    | zero => simp
    | succ r => simp

end Lead

section Delivered

variable {summary : String}

theorem serves_led (render : Json → String)
    (hcompaction : loadCompaction fromStr session.files = some summary) :
    Serves (requestPage fromStr render session) pageTurns
      (markAt session (compactTurn summary ::
        parseJcodeTranscript render (loadSessionMessages fromStr session.files)))
      (compactTurn summary ::
        parseJcodeTranscript render (loadSessionMessages fromStr session.files))
      (':' ∉ session.id.toList) := by
  have hread : transcriptMissing fromStr session.files = false := by
    simp [transcriptMissing, hcompaction]
  have hserves := requestPage_serves render hread
  rw [conversationTurns, hcompaction] at hserves
  exact hserves

theorem LeadDelivered.complete
    (hcompaction : loadCompaction fromStr session.files = some summary)
    (h : LeadDelivered fromStr render session summary) :
    Complete pageTurns (markAt session (compactTurn summary ::
        parseJcodeTranscript render (loadSessionMessages fromStr session.files)))
      (':' ∉ session.id.toList) (compactTurn summary ::
        parseJcodeTranscript render (loadSessionMessages fromStr session.files)).length := by
  obtain ⟨fuel, pages, hfollow, page, hpage, -⟩ := h
  have hserves := serves_led render hcompaction
  by_contra hincomplete
  obtain ⟨start, hpos, -, hflatten⟩ :=
    hserves.follow_incomplete le_rfl hserves.newest hincomplete hfollow
  have hmem : page ∈ pages.filter (compactTurn summary ∈ ·) := by
    rw [hpage]
    exact List.mem_singleton_self page
  obtain ⟨hpages, hhas⟩ := List.mem_filter.mp hmem
  exact lead_not_delivered (compactTurn_not_mem _ _ _) hpos hflatten page hpages
    (of_decide_eq_true hhas)

theorem LeadDelivered.oldest
    (hcompaction : loadCompaction fromStr session.files = some summary)
    (h : LeadDelivered fromStr render session summary) :
    parseJcodeTranscript render (loadSessionMessages fromStr session.files) = [] ∨
      (parseJcodeTranscript render
        (loadSessionMessages fromStr session.files)).length % pageTurns ≠ 0 := by
  have hserves := serves_led render hcompaction
  obtain ⟨fuel, pages, hfollow, hdelivers⟩ :=
    hserves.follow_complete le_rfl hserves.newest (h.complete hcompaction)
  obtain ⟨fuel', pages', hfollow', page, hpage, holdest⟩ := h
  obtain rfl := follow_unique hfollow hfollow'
  rw [lead_page (compactTurn_not_mem _ _ _) hdelivers, List.singleton_inj] at hpage
  subst hpage
  exact (lead_with_oldest_iff (compactTurn summary)).mp holdest

/-- Following the cursors gives the summary on the page of the oldest turn exactly if every
older page can be asked for, and the number of the other turns is not a positive multiple
of the size of a page. -/
theorem lead_delivered_iff
    (hcompaction : loadCompaction fromStr session.files = some summary) :
    LeadDelivered fromStr render session summary ↔
      PagesReachable session (conversationTurns fromStr render session.files) ∧
        (parseJcodeTranscript render (loadSessionMessages fromStr session.files) = [] ∨
          (parseJcodeTranscript render
            (loadSessionMessages fromStr session.files)).length % pageTurns ≠ 0) := by
  rw [← complete_iff_pagesReachable, conversationTurns, hcompaction]
  constructor
  · exact fun h => ⟨h.complete hcompaction, h.oldest hcompaction⟩
  · rintro ⟨hcomplete, holdest⟩
    have hserves := serves_led render hcompaction
    obtain ⟨fuel, pages, hfollow, hdelivers⟩ :=
      hserves.follow_complete le_rfl hserves.newest hcomplete
    refine ⟨fuel, pages, hfollow, _, lead_page (compactTurn_not_mem _ _ _) hdelivers, ?_⟩
    exact (lead_with_oldest_iff (compactTurn summary)).mpr holdest

end Delivered

section Sample

/-- What a person said, without the brace that opens the message. -/
def sayText : String :=
  "\"role\":\"user\",\"content\":[\x7b\"type\":\"text\",\"text\":\"a\"\x7d]\x7d"

def sampleSessionText (n : Nat) : String :=
  "\x7b\"messages\":[\x7b\"id\":\"m0\"," ++ sayText ++
    String.join (List.replicate n (",\x7b" ++ sayText)) ++
    "],\"compaction\":\x7b\"summary_text\":\"s\"\x7d\x7d"

def sayContent : Json := .array [.object [("text", .string "a"), ("type", .string "text")]]

def sayMessage : Json := .object [("content", sayContent), ("role", .string "user")]

def firstMessage : Json :=
  .object [("content", sayContent), ("id", .string "m0"), ("role", .string "user")]

def sampleSessionJson (n : Nat) : Json :=
  .object [("compaction", .object [("summary_text", .string "s")]),
    ("messages", .array (firstMessage :: List.replicate n sayMessage))]

/-- `n + 1` messages, of which the first has an id. -/
def sampleSession (n : Nat) : Session :=
  ⟨"session_a", ⟨some (sampleSessionText n), none, false⟩, some (1, 1), none⟩

def sampleSessionFromStr (n : Nat) (text : String) : Option Json :=
  if text = sampleSessionText n then some (sampleSessionJson n) else none

def sayTurn : Turn := ⟨.user, none, none, none, [.text "a"]⟩

def firstTurn : Turn := ⟨.user, none, none, some "m0", [.text "a"]⟩

theorem dedupMessages_replicate (seen : List String) (n : Nat) :
    dedupMessages seen (List.replicate n sayMessage) = List.replicate n sayMessage := by
  have hid : rawId sayMessage = none := rfl
  induction n with
  | zero => rfl
  | succ n ih =>
    rw [List.replicate_succ, dedupMessages, hid]
    exact congrArg (sayMessage :: ·) ih

theorem sampleSession_load (n : Nat) :
    loadSessionMessages (sampleSessionFromStr n) (sampleSession n).files =
      firstMessage :: List.replicate n sayMessage := by
  have hread : sampleSessionFromStr n (sampleSessionText n) = some (sampleSessionJson n) :=
    if_pos rfl
  have hsnapshot : snapshotMessages (sampleSessionFromStr n) (sampleSession n).files =
      firstMessage :: List.replicate n sayMessage := by
    rw [snapshotMessages, sampleSession, Option.bind_some, hread]
    rfl
  have hjournal : journalMessages (sampleSessionFromStr n) (sampleSession n).files = [] := rfl
  have hid : rawId firstMessage = some "m0" := rfl
  rw [loadSessionMessages, hsnapshot, hjournal, List.append_nil, dedupMessages, hid]
  dsimp only
  rw [if_neg List.not_mem_nil, dedupMessages_replicate]

theorem sampleSession_compaction (n : Nat) :
    loadCompaction (sampleSessionFromStr n) (sampleSession n).files = some "s" := by
  have hread : sampleSessionFromStr n (sampleSessionText n) = some (sampleSessionJson n) :=
    if_pos rfl
  rw [loadCompaction, sampleSession, Option.bind_some, hread]
  rfl

theorem walk_sayMessages (render : Json → String) (turns : List Turn) (n : Nat) :
    (List.replicate n sayMessage).foldl (parseMessage render) ⟨turns, [], []⟩ =
      ⟨turns ++ List.replicate n sayTurn, [], []⟩ := by
  induction n generalizing turns with
  | zero => rw [List.replicate_zero, List.foldl_nil, List.replicate_zero, List.append_nil]
  | succ n ih =>
    have hstep : parseMessage render ⟨turns, [], []⟩ sayMessage =
        ⟨turns ++ [sayTurn], [], []⟩ := rfl
    rw [List.replicate_succ, List.foldl_cons, hstep, ih, List.replicate_succ,
      List.append_assoc, List.singleton_append]

theorem sampleSession_parse (render : Json → String) (n : Nat) :
    parseJcodeTranscript render (firstMessage :: List.replicate n sayMessage) =
      firstTurn :: List.replicate n sayTurn := by
  have hfirst : parseMessage render ⟨[], [], []⟩ firstMessage = ⟨[firstTurn], [], []⟩ := rfl
  rw [parseJcodeTranscript, walkMessages, List.foldl_cons, hfirst, walk_sayMessages,
    settleInflight, List.foldl_nil]
  apply List.filter_eq_self.mpr
  intro turn hturn
  rcases List.mem_cons.mp hturn with rfl | hsaid
  · rfl
  · obtain rfl := List.eq_of_mem_replicate hsaid
    rfl

theorem sampleSession_turns (n : Nat) :
    conversationTurns (sampleSessionFromStr n) (fun _ => "") (sampleSession n).files =
      compactTurn "s" :: firstTurn :: List.replicate n sayTurn := by
  rw [conversationTurns, sampleSession_compaction, sampleSession_load, sampleSession_parse]

/-- The third turn has no id, so the pages end there. -/
theorem sampleSession_pages_missing :
    ¬∃ fuel pages,
      follow (requestPage (sampleSessionFromStr 100) (fun _ => "") (sampleSession 100)) fuel
        none = some pages ∧
      pages.reverse.flatten =
        conversationTurns (sampleSessionFromStr 100) (fun _ => "") (sampleSession 100).files := by
  have hread : transcriptMissing (sampleSessionFromStr 100) (sampleSession 100).files =
      false := by
    simp [transcriptMissing, sampleSession_compaction]
  rw [(requestPage_serves _ hread).follow_iff, complete_iff_pagesReachable,
    sampleSession_turns]
  intro h
  have hmarked := h.1 1 Nat.one_pos
  simp [pageTurns, sayTurn] at hmarked

/-- The summary is alone on the oldest page. -/
theorem sampleSession_lead_alone :
    ¬LeadDelivered (sampleSessionFromStr 99) (fun _ => "") (sampleSession 99) "s" := by
  intro h
  have holdest := h.oldest (sampleSession_compaction 99)
  rw [sampleSession_load, sampleSession_parse] at holdest
  simp [pageTurns] at holdest

theorem sampleSession_lead_delivered :
    LeadDelivered (sampleSessionFromStr 0) (fun _ => "") (sampleSession 0) "s" := by
  refine (lead_delivered_iff (sampleSession_compaction 0)).mpr ⟨⟨fun k hk hlt => ?_, ?_⟩, ?_⟩
  · rw [sampleSession_turns] at hlt
    simp [pageTurns] at hlt
    omega
  · rw [sampleSession_turns]
    exact .inl (by decide)
  · rw [sampleSession_load, sampleSession_parse]
    exact .inr (by decide)

end Sample

end HerdrWebui.Transcript
