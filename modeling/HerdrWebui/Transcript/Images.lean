import HerdrWebui.Transcript.Parts

/-!
The images of a conversation. A person's message gives its turn one part for each of its
images, and the reference of each is the id of the message; the fetch takes the first image
of the message with that id whose data decodes.
-/

namespace HerdrWebui.Transcript

def base64Alphabet : List UInt8 :=
  "ABCDEFGHIJKLMNOPQRSTUVWXYZabcdefghijklmnopqrstuvwxyz0123456789+/".toUTF8.data.toList

/-- The sextets of a chunk, and how many of them are padding. -/
def readSextets (slot pad : Nat) : List UInt8 → Option (List Nat × Nat)
  | [] => some ([], pad)
  | byte :: rest =>
    if byte = '='.toUInt8 then
      if slot < 2 then none
      else (readSextets (slot + 1) (pad + 1) rest).map fun read => (0 :: read.1, read.2)
    else if pad > 0 then none
    else
      (base64Alphabet.idxOf? byte).bind fun value =>
        (readSextets (slot + 1) pad rest).map fun read => (value :: read.1, read.2)

def decodeChunk (chunk : List UInt8) : Option (List UInt8) :=
  match readSextets 0 0 chunk with
  | some ([s0, s1, s2, s3], pad) =>
    let n := s0 <<< 18 ||| s1 <<< 12 ||| s2 <<< 6 ||| s3
    some ([UInt8.ofNat (n >>> 16)] ++ (if pad < 2 then [UInt8.ofNat (n >>> 8)] else []) ++
      if pad < 1 then [UInt8.ofNat n] else [])
  | _ => none

def decodeChunks : List UInt8 → Option (List UInt8)
  | b0 :: b1 :: b2 :: b3 :: rest =>
    (decodeChunk [b0, b1, b2, b3]).bind fun bytes => (decodeChunks rest).map (bytes ++ ·)
  | _ => some []

def base64Decode (input : String) : Option (List UInt8) :=
  let bytes := input.toUTF8.data.toList
  if bytes.isEmpty || bytes.length % 4 ≠ 0 then none else decodeChunks bytes

/-- The media type and the bytes of an image, if its data decodes. -/
def decodedImage (image : String × String) : Option (String × List UInt8) :=
  (base64Decode image.2).map fun bytes => (image.1, bytes)

def fetchedImage (block : JsonMap) : Option (String × List UInt8) :=
  if block.getStr "type" = some "image" then
    match block.getStr "media_type", block.getStr "data" with
    | some mediaType, some data =>
      if !isSupportedImageType mediaType then none else decodedImage (mediaType, data)
    | _, _ => none
  else none

def findImage (messages : List Json) (reference : String) : Option (String × List UInt8) :=
  messages.findSome? fun message =>
    if rawId message = some reference then (objectBlocks message).findSome? fetchedImage
    else none

def imageByRef (fromStr : String → Option Json) (files : SessionFiles)
    (reference : String) : Option (String × List UInt8) :=
  if validToolRef reference then findImage (loadSessionMessages fromStr files) reference
  else none

theorem decodedImage_of_isEmpty {mediaType data : String} (h : data.isEmpty = true) :
    decodedImage (mediaType, data) = none := by
  obtain rfl : data = "" := String.isEmpty_iff.mp h
  rfl

theorem fetchedImage_eq (block : JsonMap) :
    fetchedImage block = (imageBlock block).bind decodedImage := by
  unfold fetchedImage imageBlock
  by_cases htype : block.getStr "type" = some "image"
  · rw [if_pos htype, if_pos htype]
    cases block.getStr "media_type" with
    | none => rfl
    | some mediaType =>
      cases block.getStr "data" with
      | none => rfl
      | some data =>
        dsimp only
        cases isSupportedImageType mediaType with
        | false => rfl
        | true =>
          cases hempty : data.isEmpty with
          | false => rfl
          | true => exact decodedImage_of_isEmpty hempty
  · rw [if_neg htype, if_neg htype]
    rfl

theorem userImageRefs_eq (message : Json) :
    userImageRefs message = (objectBlocks message).filterMap imageBlock := by
  unfold userImageRefs objectBlocks
  cases contentBlocks message with
  | none => rfl
  | some blocks => rfl

theorem findSome?_fetchedImage (message : Json) :
    (objectBlocks message).findSome? fetchedImage =
      (userImageRefs message).findSome? decodedImage := by
  rw [userImageRefs_eq, ← List.head?_filterMap, ← List.head?_filterMap,
    List.filterMap_filterMap, funext fetchedImage_eq]

theorem findImage_eq_none {messages : List Json} {reference : String}
    (h : reference ∉ messages.filterMap rawId) : findImage messages reference = none := by
  refine List.findSome?_eq_none_iff.mpr fun message hmem => if_neg fun hid => h ?_
  exact List.mem_filterMap.mpr ⟨message, hmem, hid⟩

theorem findImage_eq {messages : List Json} {message : Json} {reference : String}
    (hdistinct : DistinctIds messages) (hmem : message ∈ messages)
    (hid : rawId message = some reference) :
    findImage messages reference = (userImageRefs message).findSome? decodedImage := by
  obtain ⟨before, after, rfl⟩ := List.append_of_mem hmem
  rw [DistinctIds, List.filterMap_append, List.filterMap_cons_some hid,
    List.nodup_middle, List.nodup_cons, List.mem_append, not_or] at hdistinct
  obtain ⟨⟨hbefore, hafter⟩, -⟩ := hdistinct
  have hrest := findImage_eq_none hafter
  have hfirst := findImage_eq_none hbefore
  unfold findImage at hfirst hrest ⊢
  rw [List.findSome?_append, hfirst, Option.none_or, List.findSome?_cons, if_pos hid,
    findSome?_fetchedImage, hrest]
  cases (userImageRefs message).findSome? decodedImage with
  | none => rfl
  | some image => rfl

theorem findSome?_of_agree {α β : Type} {f : α → Option β} {l : List α} {x : α} (hmem : x ∈ l)
    (hagree : ∀ y ∈ l, f y = f x) : l.findSome? f = f x := by
  cases l with
  | nil => exact absurd hmem List.not_mem_nil
  | cons y l =>
    have hy := hagree y List.mem_cons_self
    rw [List.findSome?_cons]
    cases hx : f x with
    | some z => rw [hy, hx]
    | none =>
      rw [hy, hx]
      refine List.findSome?_eq_none_iff.mpr fun z hz => ?_
      exact (hagree z (List.mem_cons_of_mem _ hz)).trans hx

def TurnPart.asImage : TurnPart → Option (String × String)
  | .image mediaType refId => some (mediaType, refId)
  | _ => none

/-- The image parts of the turns, in their order. -/
def imageParts (turns : List Turn) : List (String × String) :=
  turns.flatMap fun turn => turn.parts.filterMap TurnPart.asImage

/-- An image of a person's message with the reference its part carries. -/
structure ImageSource where
  refId : String
  mediaType : String
  data : String

def messageImages (message : Json) : List ImageSource :=
  (userImageRefs message).filterMap fun image =>
    (messageId message).map fun refId => ⟨refId, image.1, image.2⟩

/-- The images people sent, in their order. -/
def imageSources (messages : List Json) : List ImageSource :=
  (messages.filter isUserMessage).flatMap messageImages

def ImageSource.part (image : ImageSource) : String × String := (image.mediaType, image.refId)

section Parts

variable {turns : List Turn} {turnIdx partIdx : Nat} {s : ParseState} {message : Json}
  {render : Json → String}

theorem imageParts_modify {f : Turn → Turn}
    (hf : ∀ turn, (f turn).parts.filterMap TurnPart.asImage =
      turn.parts.filterMap TurnPart.asImage) :
    imageParts (turns.modify turnIdx f) = imageParts turns := by
  rw [imageParts, imageParts, List.flatMap_def, List.flatMap_def, map_modify_of_comp hf]

theorem imageParts_modifyPart {f : TurnPart → TurnPart}
    (hf : ∀ part, (f part).asImage = part.asImage) :
    imageParts (modifyPart turns turnIdx partIdx f) = imageParts turns :=
  imageParts_modify fun turn => filterMap_modify_of_comp hf turn.parts partIdx

theorem imageParts_pushPart {part : TurnPart} (h : part.asImage = none) :
    imageParts (pushPart turns turnIdx part) = imageParts turns := by
  apply imageParts_modify
  intro turn
  rw [List.filterMap_append, List.filterMap_cons_none h, List.filterMap_nil, List.append_nil]

theorem imageParts_append (turns more : List Turn) :
    imageParts (turns ++ more) = imageParts turns ++ imageParts more := List.flatMap_append

theorem imageParts_filter (turns : List Turn) :
    imageParts (turns.filter (!·.parts.isEmpty)) = imageParts turns := by
  induction turns with
  | nil => rfl
  | cons turn turns ih =>
    rw [List.filter_cons]
    split
    · exact congrArg (turn.parts.filterMap TurnPart.asImage ++ ·) ih
    · next hempty =>
        rw [Bool.not_eq_true, Bool.not_eq_false', List.isEmpty_iff] at hempty
        rw [ih, imageParts, imageParts, List.flatMap_cons, hempty]
        rfl

theorem imageParts_setEndTs (ts : Option String) :
    imageParts (setEndTs turns turnIdx ts) = imageParts turns := by
  unfold setEndTs
  split
  · exact imageParts_modify fun _ => rfl
  · rfl

theorem imageParts_openTurn (message : Json) :
    imageParts (openTurn turns message) = imageParts turns := by
  unfold openTurn
  split
  · rfl
  · rw [imageParts_append]
    exact List.append_nil _

theorem asImage_withResult (result : ToolResult) (part : TurnPart) :
    (part.withResult result.id result.block result.isError).asImage = part.asImage := by
  cases part <;> rfl

theorem asImage_settlePart (part : TurnPart) :
    (settlePart s turnIdx partIdx part).asImage = part.asImage := by
  unfold settlePart
  split
  · dsimp only
    split
    · rfl
    · rfl
  · rfl

theorem imageParts_foldResult (result : ToolResult) :
    imageParts (foldResult s result).turns = imageParts s.turns := by
  unfold foldResult
  split
  · rfl
  · exact imageParts_modifyPart (asImage_withResult result)

theorem asImage_userParts (texts : List String) :
    (userParts (messageId message) (userImageRefs message) texts).filterMap TurnPart.asImage =
      (messageImages message).map ImageSource.part := by
  have htexts : (if texts.isEmpty then [] else [TurnPart.text ("\n".intercalate texts)]).filterMap
      TurnPart.asImage = [] := by
    split <;> rfl
  rw [userParts, List.filterMap_append, htexts, List.append_nil, messageImages,
    List.filterMap_filterMap, List.map_filterMap]
  refine congrArg (List.filterMap · _) (funext fun image => ?_)
  cases messageId message with
  | none => rfl
  | some refId => rfl

theorem imageParts_userMessage {blocks : List Json} :
    imageParts (userMessage s message blocks).turns =
      imageParts s.turns ++ (messageImages message).map ImageSource.part := by
  have hresults : imageParts (((blocks.filterMap Json.asObject).filterMap toolResult).foldl
      foldResult s).turns = imageParts s.turns := by
    apply List.foldlRecOn (motive := fun s' : ParseState => imageParts s'.turns =
      imageParts s.turns)
    · rfl
    · exact fun s' hs' result _ => (imageParts_foldResult result).trans hs'
  unfold userMessage
  dsimp only
  split
  · next hnothing =>
      obtain ⟨-, himages⟩ := Bool.and_eq_true_iff.mp hnothing
      rw [messageImages, List.isEmpty_iff.mp himages, hresults]
      exact (List.append_nil _).symm
  · rw [imageParts_append, hresults]
    apply congrArg (imageParts s.turns ++ ·)
    exact (List.append_nil _).trans (asImage_userParts _)

theorem imageParts_assistantBlock (block : JsonMap) :
    imageParts (assistantBlock render turnIdx s block).turns = imageParts s.turns := by
  unfold assistantBlock
  split
  · unfold pushToolUse
    dsimp only
    split
    · exact imageParts_pushPart rfl
    · exact imageParts_pushPart rfl
  · split
    · exact imageParts_pushPart rfl
    · exact imageParts_pushPart rfl
    · rfl

theorem imageParts_assistantMessage {blocks : List Json} :
    imageParts (assistantMessage render s message blocks).turns = imageParts s.turns := by
  unfold assistantMessage
  dsimp only
  apply List.foldlRecOn (motive := fun s' : ParseState => imageParts s'.turns =
    imageParts s.turns)
  · exact (imageParts_setEndTs _).trans (imageParts_openTurn message)
  · exact fun s' hs' block _ => (imageParts_assistantBlock block).trans hs'

/-- The images of a message, if a person sent it. -/
def sentImages (message : Json) : List ImageSource :=
  if isUserMessage message then messageImages message else []

theorem imageSources_cons (message : Json) (messages : List Json) :
    imageSources (message :: messages) = sentImages message ++ imageSources messages := by
  unfold imageSources sentImages
  rw [List.filter_cons]
  split
  · exact List.flatMap_cons
  · rfl

theorem imageParts_parseMessage :
    imageParts (parseMessage render s message).turns =
      imageParts s.turns ++ (sentImages message).map ImageSource.part := by
  unfold parseMessage
  split
  · next hblocks =>
      have hnone : userImageRefs message = [] := by rw [userImageRefs, hblocks]
      have hempty : sentImages message = [] := by
        rw [sentImages, messageImages, hnone, List.filterMap_nil, ite_self]
      rw [hempty]
      exact (List.append_nil _).symm
  · next blocks hblocks =>
      split
      · next hbookkeeping =>
          rw [sentImages, isUserMessage, hbookkeeping, Bool.not_true, Bool.and_false]
          exact (List.append_nil _).symm
      · next hperson =>
          have hrole : isUserMessage message = (message.getStr "role" == some "user") := by
            rw [isUserMessage, Bool.eq_false_iff.mpr hperson, Bool.not_false, Bool.and_true]
          rw [sentImages, hrole]
          split
          · next huser =>
              rw [huser]
              exact imageParts_userMessage
          · next hassistant =>
              rw [hassistant, imageParts_assistantMessage]
              exact (List.append_nil _).symm
          · next hneither _ =>
              rw [if_neg fun h => hneither (beq_iff_eq.mp h)]
              exact (List.append_nil _).symm

theorem imageParts_walk (messages : List Json) :
    imageParts (messages.foldl (parseMessage render) s).turns =
      imageParts s.turns ++ (imageSources messages).map ImageSource.part := by
  induction messages generalizing s with
  | nil => exact (List.append_nil _).symm
  | cons message messages ih =>
    rw [List.foldl_cons, ih, imageParts_parseMessage, List.append_assoc, ← List.map_append,
      ← imageSources_cons]

theorem imageParts_parse (render : Json → String) (messages : List Json) :
    imageParts (parseJcodeTranscript render messages) =
      (imageSources messages).map ImageSource.part := by
  have hsettled : imageParts (settleInflight (walkMessages render messages)) =
      imageParts (walkMessages render messages).turns := by
    apply List.foldlRecOn (motive := fun turns => imageParts turns =
      imageParts (walkMessages render messages).turns)
    · rfl
    · exact fun turns hturns entry _ =>
        (imageParts_modifyPart fun part => asImage_settlePart part).trans hturns
  rw [parseJcodeTranscript, imageParts_filter, hsettled]
  exact imageParts_walk messages

end Parts

section Resolve

variable {fromStr : String → Option Json} {render : Json → String} {files : SessionFiles}

/-- The media type and the bytes of the image. -/
def ImageSource.decoded (image : ImageSource) : Option (String × List UInt8) :=
  decodedImage (image.mediaType, image.data)

/-- The image parts are those of the images people sent, each reference gives the media
type and the bytes of its own image, and images with different bytes have different ones. -/
structure ImagesResolve (fromStr : String → Option Json) (render : Json → String)
    (files : SessionFiles) : Prop where
  parts : imageParts (parseJcodeTranscript render (loadSessionMessages fromStr files)) =
    (imageSources (loadSessionMessages fromStr files)).map ImageSource.part
  fetched : ∀ image ∈ imageSources (loadSessionMessages fromStr files),
    imageByRef fromStr files image.refId = image.decoded
  distinct : ∀ image ∈ imageSources (loadSessionMessages fromStr files),
    ∀ other ∈ imageSources (loadSessionMessages fromStr files),
      base64Decode image.data ≠ base64Decode other.data → image.refId ≠ other.refId

/-- The images of a message are the same image. -/
def SameImages (message : Json) : Prop :=
  ∀ image ∈ userImageRefs message, ∀ other ∈ userImageRefs message,
    decodedImage image = decodedImage other

theorem mem_imageSources {messages : List Json} {image : ImageSource} :
    image ∈ imageSources messages ↔ ∃ message ∈ messages, isUserMessage message = true ∧
      messageId message = some image.refId ∧
      (image.mediaType, image.data) ∈ userImageRefs message := by
  unfold imageSources messageImages
  simp only [List.mem_flatMap, List.mem_filter, List.mem_filterMap, Option.map_eq_some_iff]
  constructor
  · rintro ⟨message, ⟨hmem, huser⟩, sent, hsent, id, hid, rfl⟩
    exact ⟨message, hmem, huser, hid, hsent⟩
  · rintro ⟨message, hmem, huser, hid, hsent⟩
    exact ⟨message, ⟨hmem, huser⟩, _, hsent, _, hid, rfl⟩

theorem imageByRef_eq {message : Json} {refId : String}
    (hmem : message ∈ loadSessionMessages fromStr files)
    (hid : messageId message = some refId) :
    imageByRef fromStr files refId = (userImageRefs message).findSome? decodedImage := by
  obtain ⟨hraw, hvalid⟩ := messageId_eq_some hid
  rw [imageByRef, if_pos hvalid]
  exact findImage_eq (loadSessionMessages_distinctIds fromStr files) hmem hraw

/-- References stand for their own images exactly if no message of a person with a usable
id has two different images. -/
theorem imagesResolve_iff (fromStr : String → Option Json) (render : Json → String)
    (files : SessionFiles) :
    ImagesResolve fromStr render files ↔
      ∀ message ∈ loadSessionMessages fromStr files, isUserMessage message = true →
        (messageId message).isSome → SameImages message := by
  constructor
  · intro h message hmem huser hsome image himage other hother
    obtain ⟨refId, hid⟩ := Option.isSome_iff_exists.mp hsome
    have hfetched {sent : String × String} (hsent : sent ∈ userImageRefs message) :
        imageByRef fromStr files refId = decodedImage sent :=
      h.fetched ⟨refId, sent.1, sent.2⟩ (mem_imageSources.mpr ⟨message, hmem, huser, hid, hsent⟩)
    exact (hfetched himage).symm.trans (hfetched hother)
  · intro hsame
    have hfetched : ∀ image ∈ imageSources (loadSessionMessages fromStr files),
        imageByRef fromStr files image.refId = image.decoded := by
      intro image himage
      obtain ⟨message, hmem, huser, hid, hsent⟩ := mem_imageSources.mp himage
      have hagree := hsame message hmem huser (Option.isSome_of_eq_some hid)
      rw [imageByRef_eq hmem hid]
      exact findSome?_of_agree hsent fun other hother => hagree other hother _ hsent
    refine ⟨imageParts_parse render _, hfetched, ?_⟩
    intro image himage other hother hdifferent hshared
    have hdecoded : image.decoded = other.decoded := by
      rw [← hfetched image himage, ← hfetched other hother, hshared]
    have hbytes := congrArg (Option.map Prod.snd) hdecoded
    simp only [ImageSource.decoded, decodedImage, Option.map_map] at hbytes
    exact hdifferent (by simpa [Function.comp_def] using hbytes)

def imageJson (mediaType data : String) : Json :=
  .object [("data", .string data), ("media_type", .string mediaType),
    ("type", .string "image")]

def twoImages : Json :=
  .object [("content", .array [imageJson "image/png" "AAAA", imageJson "image/png" "AQID"]),
    ("id", .string "m1"), ("role", .string "user")]

def twoImagesText : String :=
  "\x7b\"messages\":[\x7b\"id\":\"m1\",\"role\":\"user\",\"content\":[" ++
    "\x7b\"type\":\"image\",\"media_type\":\"image/png\",\"data\":\"AAAA\"\x7d," ++
    "\x7b\"type\":\"image\",\"media_type\":\"image/png\",\"data\":\"AQID\"\x7d]\x7d]\x7d"

def twoImagesFromStr (text : String) : Option Json :=
  if text = twoImagesText then some (.object [("messages", .array [twoImages])]) else none

theorem twoImages_load :
    loadSessionMessages twoImagesFromStr ⟨some twoImagesText, none, false⟩ = [twoImages] := by
  rw [loadSessionMessages, snapshotMessages, Option.bind_some, twoImagesFromStr, if_pos rfl]
  rfl

/-- The second of two images is fetched as the first. -/
theorem twoImages_not_resolve :
    ¬ImagesResolve twoImagesFromStr (fun _ => "") ⟨some twoImagesText, none, false⟩ := by
  intro h
  have hsent : (⟨"m1", "image/png", "AQID"⟩ : ImageSource) ∈
      imageSources (loadSessionMessages twoImagesFromStr ⟨some twoImagesText, none, false⟩) := by
    rw [twoImages_load]
    exact mem_imageSources.mpr
      ⟨twoImages, List.mem_singleton_self _, by decide, by decide, by decide⟩
  have hsecond := h.fetched _ hsent
  rw [imageByRef, twoImages_load] at hsecond
  exact absurd hsecond (by decide +kernel)

end Resolve

end HerdrWebui.Transcript
