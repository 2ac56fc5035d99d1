import Mathlib.Data.List.Infix
import Mathlib.Logic.Relation

/-!
Color replies of a terminal are taken out of what is typed, chunk by chunk. The end of a chunk that
may be the start of a reply waits for the next one. A unit of a string is taken for a character; the
replies are ASCII.
-/

namespace HerdrWebui.Terminal

def isColorDigit (c : Char) : Bool :=
  c.isDigit || ('a' ≤ c && c ≤ 'f') || ('A' ≤ c && c ≤ 'F')

/-- How many characters a part of a pattern takes at the start of a text. -/
abbrev Taken := List Char → Option Nat

def word (part : String) : Taken := fun text =>
  if part.toList.isPrefixOf text then some part.length else none

def digitRun (isDigit : Char → Bool) (most : Nat) (text : List Char) : Nat :=
  ((text.take most).takeWhile isDigit).length

def digits (isDigit : Char → Bool) (most : Nat) : Taken := fun text =>
  (some (digitRun isDigit most text)).filter (0 < ·)

def andThen (first second : Taken) : Taken := fun text =>
  (first text).bind fun n => (second (text.drop n)).map (n + ·)

def replyCode : Taken := fun text =>
  (["10", "11", "12"].findSome? (word · text)).or (andThen (word "4;") (digits Char.isDigit 3) text)

def replyEnding : Taken := fun text =>
  (["\x07", "\x1b\\", "\\"].findSome? (word · text)).or (some 0)

def replyBody : Taken :=
  [replyCode, word ";rgb:", digits isColorDigit 4, word "/", digits isColorDigit 4, word "/",
    digits isColorDigit 4, replyEnding].foldr andThen fun _ => some 0

/-- A match of `TERMINAL_QUERY_REPLY_PATTERN` at the start of a text. No part of the pattern can
take less than it can and have a match. -/
def terminalQueryReply : Taken := fun text =>
  (andThen (word "\x1b]") replyBody text).or (replyBody text)

/-- All matches from the left go. None is empty, so there are no more steps than characters. -/
def removeReplies : Nat → List Char → List Char
  | 0, text => text
  | _, [] => []
  | fuel + 1, c :: text =>
    match terminalQueryReply (c :: text) with
    | some n => removeReplies fuel ((c :: text).drop n)
    | none => c :: removeReplies fuel text

def partialGroups (more : Nat) (text : List Char) : Bool :=
  match more, text.drop (digitRun isColorDigit 4 text) with
  | _, [] => true
  | more + 1, '/' :: rest => partialGroups more rest
  | _, _ => false

def partialColor (text : List Char) : Bool :=
  ["", ";r", ";rg", ";rgb"].any (·.toList = text) ||
    (";rgb:".toList.isPrefixOf? text).any (partialGroups 2)

def partialReply : List Char → Bool
  | '1' :: text =>
    partialColor text || text.head?.any (['0', '1', '2'].contains ·) && partialColor text.tail
  | '4' :: text =>
    partialColor text || text.head? = some ';' &&
      partialColor (text.tail.drop (digitRun Char.isDigit 3 text.tail))
  | _ => false

def terminalQueryReplyPartial (value : List Char) : Bool :=
  if value = [] ∨ value = ['\x1b'] then false
  else if value = "\x1b]".toList then true
  else
    let opened := "\x1b]".toList.isPrefixOf? value
    let text := opened.getD value
    (opened.isSome || ";r".toList <:+: text) &&
      partialReply text && terminalQueryReply text ≠ some text.length

def terminalQueryReplyPendingSuffix (value : List Char) : List Char :=
  ((value.drop (value.length - 96)).tails.find? terminalQueryReplyPartial).getD []

/-- What a chunk lets through, and what waits. -/
def stripTerminalQueryReplies (carry data : List Char) : List Char × List Char :=
  let text := removeReplies (carry ++ data).length (carry ++ data)
  let pending := terminalQueryReplyPendingSuffix text
  (text.take (text.length - pending.length), pending)

def stripChunks (chunks : List (List Char)) : List Char × List Char :=
  chunks.foldl (fun stripped data =>
    let (text, carry) := stripTerminalQueryReplies stripped.2 data
    (stripped.1 ++ text, carry)) ([], [])

/-- What the pattern takes from a text. -/
def IsQueryReply (reply : List Char) : Prop :=
  ∃ text n, terminalQueryReply text = some n ∧ reply = text.take n

/-- Parts of a text go, one after another. -/
def Deletes (gone : List Char → Prop) : List Char → List Char → Prop :=
  Relation.ReflTransGen fun text text' => ∃ front mid back,
    gone mid ∧ text = front ++ mid ++ back ∧ text' = front ++ back

section Deletes

variable {gone : List Char → Prop} {text text' : List Char}

theorem Deletes.append (h : Deletes gone text text') (front back : List Char) :
    Deletes gone (front ++ text ++ back) (front ++ text' ++ back) := by
  refine Relation.ReflTransGen.lift (front ++ · ++ back) (fun _ _ hstep => ?_) text text' h
  obtain ⟨front', mid, back', hgone, rfl, rfl⟩ := hstep
  exact ⟨front ++ front', mid, back' ++ back, hgone, by simp, by simp⟩

theorem Deletes.eq_of_none (h : Deletes gone text text')
    (hnone : ∀ mid, mid <:+: text → ¬gone mid) : text' = text := by
  rcases h.cases_head with rfl | ⟨_, ⟨front, mid, back, hgone, rfl, -⟩, -⟩
  · rfl
  · exact absurd hgone (hnone mid ⟨front, back, rfl⟩)

end Deletes

theorem removeReplies_deletes (fuel : Nat) (text : List Char) :
    Deletes IsQueryReply text (removeReplies fuel text) := by
  induction fuel generalizing text with
  | zero => exact .refl
  | succ fuel ih =>
    cases text with
    | nil => exact .refl
    | cons c text =>
      rw [removeReplies]
      split
      · next n hfound =>
        refine .head ⟨[], (c :: text).take n, (c :: text).drop n, ⟨_, n, hfound, rfl⟩, ?_, rfl⟩
          (ih _)
        simp
      · simpa using (ih text).append [c] []

theorem pendingSuffix_spec {value pending : List Char}
    (h : terminalQueryReplyPendingSuffix value = pending) :
    pending <:+ value ∧ pending.length ≤ 96 ∧
      (pending ≠ [] → terminalQueryReplyPartial pending = true) := by
  rw [terminalQueryReplyPendingSuffix] at h
  cases hfound : (value.drop (value.length - 96)).tails.find? terminalQueryReplyPartial with
  | none =>
    obtain rfl : [] = pending := by rw [← h, hfound, Option.getD_none]
    exact ⟨List.nil_suffix, Nat.zero_le 96, absurd rfl⟩
  | some found =>
    obtain rfl : found = pending := by rw [← h, hfound, Option.getD_some]
    have hin := (List.mem_tails _ _).mp (List.mem_of_find?_eq_some hfound)
    refine ⟨hin.trans (List.drop_suffix _ _), hin.length_le.trans ?_,
      fun _ => List.find?_some hfound⟩
    rw [List.length_drop]
    omega

theorem stripTerminalQueryReplies_spec (carry data : List Char) {text pending : List Char}
    (h : stripTerminalQueryReplies carry data = (text, pending)) :
    Deletes IsQueryReply (carry ++ data) (text ++ pending) ∧ pending.length ≤ 96 ∧
      (pending ≠ [] → terminalQueryReplyPartial pending = true) := by
  have hgone := removeReplies_deletes (carry ++ data).length (carry ++ data)
  obtain ⟨rfl, hpending⟩ := Prod.mk.inj h
  obtain ⟨hsuffix, hwaits⟩ := pendingSuffix_spec hpending
  rw [hpending, List.suffix_iff_eq_append.mp hsuffix]
  exact ⟨hgone, hwaits⟩

end HerdrWebui.Terminal
