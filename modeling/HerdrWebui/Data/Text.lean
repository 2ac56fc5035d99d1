import Mathlib.Data.List.DropRight
import Mathlib.Tactic

/-!
Trimming by the Unicode property `White_Space`, which core's trimming does not
go by, the pieces a text is cut into, and the bytes of a string.
-/

namespace HerdrWebui

/-- `char::is_whitespace`. -/
def isWhitespace (c : Char) : Bool :=
  let n := c.toNat
  (0x9 ≤ n && n ≤ 0xD) || n == 0x20 || n == 0x85 || n == 0xA0 || n == 0x1680 ||
    (0x2000 ≤ n && n ≤ 0x200A) || n == 0x2028 || n == 0x2029 || n == 0x202F ||
    n == 0x205F || n == 0x3000

theorem isWhitespace_digit {c : Char} (h : c.isDigit = true) : isWhitespace c = false := by
  rw [Char.isDigit, Bool.and_eq_true, decide_eq_true_eq, decide_eq_true_eq, ge_iff_le,
    UInt32.le_iff_toNat_le, UInt32.le_iff_toNat_le] at h
  change 48 ≤ c.toNat ∧ c.toNat ≤ 57 at h
  simp only [isWhitespace, Bool.or_eq_false_iff, Bool.and_eq_false_iff, decide_eq_false_iff_not,
    beq_eq_false_iff_ne]
  omega

/-- `str::trim`. -/
def trim (s : String) : String :=
  String.ofList
    ((s.toList.dropWhile isWhitespace).reverse.dropWhile isWhitespace).reverse

/-- A trimmed value, unless nothing is left of it. -/
def trimNonempty (s : String) : Option String :=
  let trimmed := trim s
  if trimmed.isEmpty then none else some trimmed

example : trim " a b\t" = "a b" := by decide +kernel

theorem trim_eq (s : String) :
    trim s = String.ofList ((s.toList.dropWhile isWhitespace).rdropWhile isWhitespace) := rfl

@[simp] theorem trim_trim (s : String) : trim (trim s) = trim s := by
  rw [trim_eq (trim s), trim_eq s, String.toList_ofList]
  generalize hl : s.toList.dropWhile isWhitespace = l
  have hfront : l.dropWhile isWhitespace = l := by
    rw [← hl, List.dropWhile_idempotent]
  have hpre : l.rdropWhile isWhitespace <+: l := List.rdropWhile_prefix _ _
  have htrimmed : (l.rdropWhile isWhitespace).dropWhile isWhitespace =
      l.rdropWhile isWhitespace := by
    rw [List.dropWhile_eq_self_iff] at hfront ⊢
    intro hpos
    rw [hpre.getElem hpos]
    exact hfront (hpos.trans_le hpre.length_le)
  rw [htrimmed, List.rdropWhile_idempotent]

theorem trim_ofList {chars : List Char} (hfirst : ∀ c ∈ chars.head?, isWhitespace c = false)
    (hlast : ∀ c ∈ chars.getLast?, isWhitespace c = false) :
    trim (String.ofList chars) = String.ofList chars := by
  have hfront : chars.dropWhile isWhitespace = chars := by
    cases chars with
    | nil => rfl
    | cons c rest =>
      rw [List.dropWhile_cons, hfirst c rfl, if_neg Bool.false_ne_true]
  have hback : chars.rdropWhile isWhitespace = chars := by
    rw [List.rdropWhile_eq_self_iff]
    intro hne
    rw [hlast _ (List.getLast?_eq_getLast_of_ne_nil hne)]
    exact Bool.false_ne_true
  rw [trim_eq, String.toList_ofList, hfront, hback]

theorem trim_eq_self_iff {chars : List Char} :
    trim (String.ofList chars) = String.ofList chars ↔
      (∀ c ∈ chars.head?, isWhitespace c = false) ∧
        ∀ c ∈ chars.getLast?, isWhitespace c = false := by
  refine ⟨fun htrim => ?_, fun h => trim_ofList h.1 h.2⟩
  rw [trim_eq, String.toList_ofList] at htrim
  have hchars := String.ofList_injective htrim
  have hback := (List.rdropWhile_prefix isWhitespace
    (l := chars.dropWhile isWhitespace)).length_le
  have hfront := (List.dropWhile_suffix isWhitespace (l := chars)).length_le
  have hlength := congrArg List.length hchars
  have hstart : chars.dropWhile isWhitespace = chars :=
    (List.dropWhile_suffix isWhitespace).eq_of_length (by omega)
  rw [hstart] at hchars
  constructor
  · intro c hc
    cases chars with
    | nil => cases hc
    | cons d rest =>
      obtain rfl := Option.some.inj hc
      by_contra hblank
      have hdrop := List.dropWhile_suffix isWhitespace (l := rest)
      rw [List.dropWhile_cons, if_pos (by simpa using hblank)] at hstart
      have hshort := hdrop.length_le
      rw [hstart, List.length_cons] at hshort
      omega
  · intro c hc
    rw [List.rdropWhile_eq_self_iff] at hchars
    obtain ⟨hne, rfl⟩ := List.mem_getLast?_eq_getLast hc
    simpa using hchars hne

/-- A text that starts with a character that is not blank is not trimmed away. -/
theorem isEmpty_trim {text : String} {c : Char} {rest : List Char}
    (htext : text.toList = c :: rest) (hc : isWhitespace c = false) :
    (trim text).isEmpty = false := by
  apply Bool.eq_false_iff.mpr
  intro hempty
  have hchars := congrArg String.toList (String.isEmpty_iff.mp hempty)
  rw [trim, String.toList_ofList, htext, List.dropWhile_cons, hc, if_neg Bool.false_ne_true,
    String.toList_empty, List.reverse_eq_nil_iff, List.dropWhile_eq_nil_iff] at hchars
  have hblank := hchars c (List.mem_reverse.mpr List.mem_cons_self)
  exact Bool.false_ne_true (hc.symm.trans hblank)

theorem rdropWhile_append_cons {p : Char → Bool} {c : Char} (hc : p c = false)
    (front chars : List Char) :
    (front ++ c :: chars).rdropWhile p = front ++ c :: chars.rdropWhile p := by
  induction chars using List.reverseRecOn with
  | nil =>
    rw [List.rdropWhile_concat_neg p front c (by rw [hc]; exact Bool.false_ne_true),
      List.rdropWhile_nil]
  | append_singleton chars d ih =>
    have hassoc : front ++ c :: (chars ++ [d]) = front ++ c :: chars ++ [d] := by simp
    by_cases hd : p d
    · rw [hassoc, List.rdropWhile_concat_pos p _ d hd, ih, List.rdropWhile_concat_pos p _ d hd]
    · rw [hassoc, List.rdropWhile_concat_neg p _ d hd, List.rdropWhile_concat_neg p _ d hd,
        hassoc]

theorem rdropWhile_append_of_all {p : Char → Bool} {tail : List Char}
    (h : ∀ c ∈ tail, p c = true) (chars : List Char) :
    (chars ++ tail).rdropWhile p = chars.rdropWhile p := by
  induction tail using List.reverseRecOn with
  | nil => rw [List.append_nil]
  | append_singleton tail d ih =>
    rw [List.forall_mem_append] at h
    rw [← List.append_assoc, List.rdropWhile_concat_pos p _ d (h.2 d List.mem_cons_self),
      ih h.1]

theorem forall_mem_of_all {α : Type} {p : α → Prop} [DecidablePred p] {l : List α}
    (h : l.all (fun x => decide (p x)) = true) : ∀ x ∈ l, p x := by
  simpa using h

/-- `skip` characters of a separator are still to be passed over; `piece` is what has
been read of the next piece, backwards. -/
def splitStr.go (sep : List Char) : (skip : Nat) → List Char → (piece : List Char) →
    List (List Char)
  | _, [], piece => [piece.reverse]
  | skip + 1, _ :: rest, piece => go sep skip rest piece
  | 0, c :: rest, piece =>
    if sep.isPrefixOf (c :: rest) then piece.reverse :: go sep (sep.length - 1) rest []
    else go sep 0 rest (c :: piece)

/-- `str::split` by a text that is not empty. -/
def splitStr (sep text : String) : List String :=
  (splitStr.go sep.toList 0 text.toList []).map String.ofList

def splitnChars (sep : Char) : Nat → List Char → List (List Char)
  | 0, _ => []
  | 1, chars => [chars]
  | n + 2, chars =>
    match chars.dropWhile (· ≠ sep) with
    | [] => [chars]
    | _ :: rest => chars.takeWhile (· ≠ sep) :: splitnChars sep (n + 1) rest

/-- `str::splitn` with a character: the last of `n` pieces is the rest. -/
def splitn (n : Nat) (sep : Char) (text : String) : List String :=
  (splitnChars sep n text.toList).map String.ofList

theorem splitnChars_append {sep : Char} {piece : List Char} (n : Nat) (rest : List Char)
    (h : sep ∉ piece) :
    splitnChars sep (n + 2) (piece ++ sep :: rest) = piece :: splitnChars sep (n + 1) rest := by
  have hall : ∀ c ∈ piece, decide (c ≠ sep) = true := by
    intro c hc
    exact decide_eq_true fun heq => h (heq ▸ hc)
  have hdrop : (piece ++ sep :: rest).dropWhile (· ≠ sep) = sep :: rest := by
    rw [List.dropWhile_append_of_pos hall]
    simp
  have htake : (piece ++ sep :: rest).takeWhile (· ≠ sep) = piece := by
    rw [List.takeWhile_append_of_pos hall]
    simp
  rw [splitnChars, hdrop]
  dsimp only
  rw [htake]

theorem splitnChars_head? (sep : Char) (n : Nat) (chars : List Char) :
    (splitnChars sep (n + 2) chars).head? = some (chars.takeWhile (· ≠ sep)) := by
  rw [splitnChars]
  split
  · next hnone =>
      rw [List.head?_cons, List.takeWhile_eq_self_iff.mpr (List.dropWhile_eq_nil_iff.mp hnone)]
  · rfl

theorem splitnChars_intercalate {sep : Char} {words : List (List Char)} (last : List Char)
    (h : ∀ word ∈ words, sep ∉ word) :
    splitnChars sep (words.length + 1) ([sep].intercalate (words ++ [last])) =
      words ++ [last] := by
  induction words with
  | nil => simp [splitnChars]
  | cons word words ih =>
    have hrest : words ++ [last] ≠ [] := List.append_ne_nil_of_right_ne_nil _ (by simp)
    rw [List.cons_append, List.intercalate_cons_of_ne_nil hrest, List.length_cons,
      List.append_assoc, List.singleton_append,
      splitnChars_append words.length _ (h word List.mem_cons_self),
      ih fun other hother => h other (List.mem_cons_of_mem _ hother)]

theorem splitn_intercalate {words : List String} (last : String)
    (h : ∀ word ∈ words, ' ' ∉ word.toList) :
    splitn (words.length + 1) ' ' (" ".intercalate (words ++ [last])) = words ++ [last] := by
  have hchars : ∀ word ∈ words.map String.toList, ' ' ∉ word := by
    intro word hword
    obtain ⟨text, htext, rfl⟩ := List.mem_map.mp hword
    exact h text htext
  have hsplit := splitnChars_intercalate last.toList hchars
  rw [List.length_map] at hsplit
  rw [splitn, String.toList_intercalate, List.map_append]
  exact (congrArg (List.map String.ofList) hsplit).trans (by simp [Function.comp_def])

theorem not_mem_takeWhile_ne (sep : Char) (chars : List Char) :
    sep ∉ chars.takeWhile (· ≠ sep) := by
  intro hmem
  have htaken := List.mem_takeWhile_imp hmem
  simp at htaken

/-- `str::replace`. -/
def replaceStr (text src dst : String) : String := dst.intercalate (splitStr src text)

theorem splitStr_go_ne_nil (sep : List Char) (skip : Nat) (chars piece : List Char) :
    splitStr.go sep skip chars piece ≠ [] := by
  induction skip, chars, piece using splitStr.go.induct sep with
  | case1 => simp [splitStr.go]
  | case2 skip c rest piece ih => rwa [splitStr.go]
  | case3 c rest piece hprefix ih => simp [splitStr.go, hprefix]
  | case4 c rest piece hprefix ih => simpa [splitStr.go, hprefix] using ih

theorem intercalate_splitStr_go {sep : List Char} (hsep : sep ≠ []) (skip : Nat)
    (chars piece : List Char) :
    sep.intercalate (splitStr.go sep skip chars piece) = piece.reverse ++ chars.drop skip := by
  induction skip, chars, piece using splitStr.go.induct sep with
  | case1 skip piece => simp [splitStr.go]
  | case2 skip c rest piece ih => rw [splitStr.go, ih, List.drop_succ_cons]
  | case3 c rest piece hprefix ih =>
    obtain ⟨left, hleft⟩ := List.isPrefixOf_iff_prefix.mp hprefix
    have hrest : rest.drop (sep.length - 1) = left := by
      have hpos := List.length_pos_iff.mpr hsep
      have hdrop : (c :: rest).drop (sep.length - 1 + 1) = left := by
        rw [Nat.sub_add_cancel hpos, ← hleft, List.drop_left]
      rwa [List.drop_succ_cons] at hdrop
    rw [splitStr.go, if_pos hprefix,
      List.intercalate_cons_of_ne_nil (splitStr_go_ne_nil _ _ _ _), ih, hrest]
    simpa using hleft
  | case4 c rest piece hprefix ih =>
    rw [splitStr.go, if_neg hprefix, ih]
    simp

theorem splitStr_go_of_not_infix {sep chars : List Char} (h : ¬sep <:+: chars)
    (piece : List Char) : splitStr.go sep 0 chars piece = [piece.reverse ++ chars] := by
  induction chars generalizing piece with
  | nil => rw [splitStr.go, List.append_nil]
  | cons c chars ih =>
    rw [List.infix_cons_iff, not_or] at h
    have hprefix : ¬sep.isPrefixOf (c :: chars) = true := fun hpre =>
      h.1 (List.isPrefixOf_iff_prefix.mp hpre)
    rw [splitStr.go, if_neg hprefix, ih h.2]
    simp

theorem splitStr_of_not_infix {sep text : String} (h : ¬sep.toList <:+: text.toList) :
    splitStr sep text = [text] := by
  rw [splitStr, splitStr_go_of_not_infix h]
  simp

theorem replaceStr_of_not_infix {text src : String} (h : ¬src.toList <:+: text.toList)
    (dst : String) : replaceStr text src dst = text := by
  rw [replaceStr, splitStr_of_not_infix h, String.intercalate_singleton]

theorem splitStr_go_skip (sep : List Char) (skip : Nat) (chars piece : List Char) :
    splitStr.go sep skip chars piece = splitStr.go sep 0 (chars.drop skip) piece := by
  induction chars generalizing skip with
  | nil => rw [List.drop_nil, splitStr.go, splitStr.go]
  | cons c chars ih =>
    cases skip with
    | zero => rfl
    | succ skip => rw [splitStr.go, List.drop_succ_cons, ih]

theorem splitStr_go_piece (sep chars piece : List Char) :
    splitStr.go sep 0 chars piece =
      (splitStr.go sep 0 chars []).modifyHead (piece.reverse ++ ·) := by
  induction chars generalizing piece with
  | nil => simp [splitStr.go]
  | cons c chars ih =>
    rw [splitStr.go, splitStr.go]
    split
    · simp
    · rw [ih, ih [c], List.modifyHead_modifyHead]
      simp [Function.comp_def]

theorem toList_replaceStr (chars : List Char) (src dst : String) :
    (replaceStr (String.ofList chars) src dst).toList =
      dst.toList.intercalate (splitStr.go src.toList 0 chars []) := by
  rw [replaceStr, String.toList_intercalate, splitStr, String.toList_ofList, List.map_map]
  simp [Function.comp_def]

theorem replaceStr_cons {src : String} {c : Char} {rest : List Char}
    (h : ¬src.toList <+: c :: rest) (dst : String) :
    (replaceStr (String.ofList (c :: rest)) src dst).toList =
      c :: (replaceStr (String.ofList rest) src dst).toList := by
  have hhead (pieces : List (List Char)) (hne : pieces ≠ []) :
      dst.toList.intercalate (pieces.modifyHead ([c] ++ ·)) =
        c :: dst.toList.intercalate pieces := by
    cases pieces with
    | nil => exact absurd rfl hne
    | cons piece pieces => cases pieces <;> simp [List.intercalate_cons_cons]
  rw [toList_replaceStr, toList_replaceStr, splitStr.go,
    if_neg fun hpre => h (List.isPrefixOf_iff_prefix.mp hpre), splitStr_go_piece]
  exact hhead _ (splitStr_go_ne_nil _ _ _ _)

theorem replaceStr_append (src : String) (hsrc : src.toList ≠ []) (dst : String)
    (rest : List Char) :
    (replaceStr (String.ofList (src.toList ++ rest)) src dst).toList =
      dst.toList ++ (replaceStr (String.ofList rest) src dst).toList := by
  rw [toList_replaceStr, toList_replaceStr]
  obtain ⟨c, sep, hsep⟩ := List.exists_cons_of_ne_nil hsrc
  have hprefix : (c :: sep).isPrefixOf (c :: (sep ++ rest)) = true := by
    rw [List.isPrefixOf_iff_prefix, ← List.cons_append]
    exact List.prefix_append _ _
  rw [hsep, List.cons_append, splitStr.go, if_pos hprefix, splitStr_go_skip, List.length_cons,
    Nat.add_sub_cancel, List.drop_left, List.reverse_nil,
    List.intercalate_cons_of_ne_nil (splitStr_go_ne_nil _ _ _ _), List.nil_append]

theorem countP_intercalate (p : Char → Bool) (sep : List Char) (pieces : List (List Char)) :
    (sep.intercalate pieces).countP p =
      (pieces.map (List.countP p)).sum + (pieces.length - 1) * sep.countP p := by
  induction pieces with
  | nil => simp
  | cons piece pieces ih =>
    cases pieces with
    | nil => simp
    | cons piece' pieces =>
      have hlength : (piece :: piece' :: pieces).length - 1 =
          (piece' :: pieces).length - 1 + 1 := by simp
      have hsum : ((piece :: piece' :: pieces).map (List.countP p)).sum =
          piece.countP p + ((piece' :: pieces).map (List.countP p)).sum := by
        rw [List.map_cons, List.sum_cons]
      rw [List.intercalate_cons_cons, List.countP_append, List.countP_append, ih, hlength,
        hsum, Nat.add_mul, Nat.one_mul]
      omega

/-- A replacement exchanges some number of places, the same for all that is counted. -/
theorem countP_replaceStr (src : String) (hsrc : src.toList ≠ []) (text dst : String) :
    ∃ n, ∀ p : Char → Bool, ∃ kept, text.toList.countP p = kept + n * src.toList.countP p ∧
      (replaceStr text src dst).toList.countP p = kept + n * dst.toList.countP p := by
  have htext := intercalate_splitStr_go hsrc 0 text.toList []
  rw [List.reverse_nil, List.nil_append, List.drop_zero] at htext
  have hresult := toList_replaceStr text.toList src dst
  rw [String.ofList_toList] at hresult
  refine ⟨(splitStr.go src.toList 0 text.toList []).length - 1, fun p =>
    ⟨((splitStr.go src.toList 0 text.toList []).map (List.countP p)).sum, ?_, ?_⟩⟩
  · conv_lhs => rw [← htext]
    rw [countP_intercalate]
  · rw [hresult, countP_intercalate]

theorem mem_replaceStr {src dst text : String} (hsrc : src.toList ≠ []) {c : Char}
    (h : c ∈ (replaceStr text src dst).toList) : c ∈ text.toList ∨ c ∈ dst.toList := by
  obtain ⟨n, hcounts⟩ := countP_replaceStr src hsrc text dst
  obtain ⟨kept, htext, hresult⟩ := hcounts (· = c)
  by_contra hnone
  rw [not_or] at hnone
  have hzero : text.toList.countP (· = c) = 0 := by
    rw [List.countP_eq_zero]
    rintro d hd heq
    exact hnone.1 (of_decide_eq_true heq ▸ hd)
  have hzero' : dst.toList.countP (· = c) = 0 := by
    rw [List.countP_eq_zero]
    rintro d hd heq
    exact hnone.2 (of_decide_eq_true heq ▸ hd)
  have hpos : 0 < (replaceStr text src dst).toList.countP (· = c) :=
    List.countP_pos_iff.mpr ⟨c, h, decide_eq_true rfl⟩
  rw [hzero', Nat.mul_zero] at hresult
  omega

section Contains

variable {marker : List Char}

theorem prefix_append_cons_iff {c : Char} (hc : c ∉ marker) (before after : List Char) :
    marker <+: before ++ c :: after ↔ marker <+: before := by
  induction marker generalizing before with
  | nil => simp
  | cons m marker ih =>
    rw [List.mem_cons, not_or] at hc
    cases before with
    | nil => simp [List.cons_prefix_cons, Ne.symm hc.1]
    | cons b before =>
      rw [List.cons_append, List.cons_prefix_cons, List.cons_prefix_cons, ih hc.2]

theorem infix_append_cons_iff {c : Char} (hc : c ∉ marker) (hne : marker ≠ [])
    (before after : List Char) :
    marker <:+: before ++ c :: after ↔ marker <:+: before ∨ marker <:+: after := by
  induction before with
  | nil =>
    have hstart : ¬marker <+: c :: after := by
      have hnil := prefix_append_cons_iff hc [] after
      rw [List.nil_append, List.prefix_nil] at hnil
      exact fun h => hne (hnil.mp h)
    rw [List.nil_append, List.infix_cons_iff, or_iff_right hstart, List.infix_nil,
      or_iff_right hne]
  | cons b before ih =>
    rw [List.cons_append, List.infix_cons_iff, List.infix_cons_iff, ih, ← List.cons_append,
      prefix_append_cons_iff hc, or_assoc]

theorem infix_append_sep_iff {sep : List Char} (hsep : ∀ c ∈ sep, c ∉ marker)
    (hsepne : sep ≠ []) (hne : marker ≠ []) (before after : List Char) :
    marker <:+: before ++ (sep ++ after) ↔ marker <:+: before ∨ marker <:+: after := by
  induction sep generalizing before with
  | nil => exact absurd rfl hsepne
  | cons c sep ih =>
    rw [List.forall_mem_cons] at hsep
    rw [List.cons_append, infix_append_cons_iff hsep.1 hne]
    cases sep with
    | nil => rfl
    | cons c' sep =>
      have hrest := ih hsep.2 (List.cons_ne_nil _ _) []
      rw [List.nil_append, List.infix_nil, or_iff_right hne] at hrest
      rw [hrest]

theorem infix_intercalate_iff {sep : List Char} (hsep : ∀ c ∈ sep, c ∉ marker)
    (hsepne : sep ≠ []) (hne : marker ≠ []) (pieces : List (List Char)) :
    marker <:+: sep.intercalate pieces ↔ ∃ piece ∈ pieces, marker <:+: piece := by
  induction pieces with
  | nil => simp [hne]
  | cons piece pieces ih =>
    cases pieces with
    | nil => simp
    | cons piece' pieces =>
      rw [List.intercalate_cons_cons, List.append_assoc,
        infix_append_sep_iff hsep hsepne hne, ih]
      simp

/-- A replacement neither takes away nor makes a text that has nothing of its two sides. -/
theorem infix_replaceStr_iff {src dst : String} (hsrc : ∀ c ∈ src.toList, c ∉ marker)
    (hdst : ∀ c ∈ dst.toList, c ∉ marker) (hsrcne : src.toList ≠ [])
    (hdstne : dst.toList ≠ []) (hne : marker ≠ []) (text : String) :
    marker <:+: (replaceStr text src dst).toList ↔ marker <:+: text.toList := by
  have hpieces := intercalate_splitStr_go hsrcne 0 text.toList []
  rw [List.reverse_nil, List.nil_append, List.drop_zero] at hpieces
  rw [replaceStr, String.toList_intercalate, infix_intercalate_iff hdst hdstne hne, splitStr,
    List.map_map]
  conv_rhs => rw [← hpieces, infix_intercalate_iff hsrc hsrcne hne]
  simp [Function.comp_def]

theorem infix_rdropWhile_iff {p : Char → Bool} (hp : ∀ c ∈ marker, p c = false)
    (hne : marker ≠ []) (chars : List Char) :
    marker <:+: chars.rdropWhile p ↔ marker <:+: chars := by
  induction chars using List.reverseRecOn with
  | nil => rfl
  | append_singleton chars c ih =>
    by_cases hc : p c
    · have hmarker : c ∉ marker := fun hmem => Bool.false_ne_true ((hp c hmem).symm.trans hc)
      rw [List.rdropWhile_concat_pos p chars c hc, ih, infix_append_cons_iff hmarker hne,
        List.infix_nil, or_iff_left hne]
    · rw [List.rdropWhile_concat_neg p chars c hc]

end Contains

theorem exists_line_of_infix {marker : List Char} (hne : marker ≠ []) (hbreak : '\n' ∉ marker)
    {ls : List (List Char)} (h : ∀ l ∈ ls, '\n' ∉ l)
    (hbroken : '\n' :: marker <:+: ls.flatMap (· ++ ['\n'])) : ∃ l ∈ ls.tail, marker <+: l := by
  induction ls with
  | nil => simp at hbroken
  | cons l ls ih =>
    rw [List.forall_mem_cons] at h
    rw [List.flatMap_cons, List.append_assoc, List.singleton_append] at hbroken
    have hskip {front rest : List Char} (hfront : '\n' ∉ front)
        (hin : '\n' :: marker <:+: front ++ rest) : '\n' :: marker <:+: rest := by
      induction front with
      | nil => exact hin
      | cons c front ihf =>
        rw [List.mem_cons, not_or] at hfront
        rw [List.cons_append, List.infix_cons_iff, List.cons_prefix_cons] at hin
        rcases hin with ⟨heq, -⟩ | hin
        · exact absurd heq hfront.1
        · exact ihf hfront.2 hin
    have hrest := hskip h.1 hbroken
    rw [List.infix_cons_iff, List.cons_prefix_cons] at hrest
    rcases hrest with ⟨-, hprefix⟩ | hrest
    · cases ls with
      | nil => exact absurd (List.prefix_nil.mp hprefix) hne
      | cons l' ls =>
        rw [List.flatMap_cons, List.append_assoc, List.singleton_append,
          prefix_append_cons_iff hbreak] at hprefix
        exact ⟨l', List.mem_cons_self, hprefix⟩
    · obtain ⟨l', hl', hprefix⟩ := ih h.2 hrest
      exact ⟨l', List.mem_of_mem_tail hl', hprefix⟩

/-- `str::lines`: a carriage return goes with the line feed it stands before, and no
empty line follows the last line feed. -/
def lines (text : String) : List String :=
  let pieces := text.toList.splitOn '\n'
  let ended := pieces.dropLast.map fun line =>
    if line.getLast? = some '\r' then line.dropLast else line
  let open_ := pieces.getLast?.toList.filter (· ≠ [])
  (ended ++ open_).map String.ofList

theorem not_mem_splitOn {sep : Char} {chars piece : List Char} (h : piece ∈ chars.splitOn sep) :
    sep ∉ piece := by
  induction chars generalizing piece with
  | nil =>
    rw [List.splitOn_nil, List.mem_singleton] at h
    subst h
    exact List.not_mem_nil
  | cons c chars ih =>
    rw [List.splitOn_cons_eq_if_modifyHead] at h
    split at h
    · rcases List.mem_cons.mp h with rfl | hrest
      · exact List.not_mem_nil
      · exact ih hrest
    · next hother =>
        cases hpieces : chars.splitOn sep with
        | nil => exact absurd hpieces (List.splitOn_ne_nil sep chars)
        | cons first rest =>
          rw [hpieces] at h ih
          rcases List.mem_cons.mp h with rfl | hrest
          · rw [List.mem_cons, not_or]
            refine ⟨fun heq => hother ?_, ih List.mem_cons_self⟩
            rw [heq]
            exact beq_self_eq_true _
          · exact ih (List.mem_cons_of_mem _ hrest)

theorem not_mem_lines {text line : String} (h : line ∈ lines text) : '\n' ∉ line.toList := by
  obtain ⟨chars, hchars, rfl⟩ := List.mem_map.mp h
  rw [String.toList_ofList]
  rcases List.mem_append.mp hchars with hended | hopen
  · obtain ⟨piece, hpiece, rfl⟩ := List.mem_map.mp hended
    have hline := not_mem_splitOn (List.mem_of_mem_dropLast hpiece)
    split
    · exact fun hmem => hline (List.mem_of_mem_dropLast hmem)
    · exact hline
  · have hlast := Option.mem_toList.mp (List.mem_of_mem_filter hopen)
    exact not_mem_splitOn (List.mem_of_getLast? hlast)

/-- A line without the carriage return at its end. -/
def dropCr (line : String) : String :=
  String.ofList
    (if line.toList.getLast? = some '\r' then line.toList.dropLast else line.toList)

theorem dropCr_eq_self {line : String} :
    dropCr line = line ↔ line.toList.getLast? ≠ some '\r' := by
  rw [dropCr]
  split
  · next hlast =>
      refine iff_of_false (fun hsame => ?_) (not_not_intro hlast)
      have hlength := congrArg String.length hsame
      rw [String.length_ofList, List.length_dropLast, ← String.length_toList] at hlength
      have hpos := List.length_pos_of_mem (List.mem_of_getLast? hlast)
      omega
  · next hlast => exact iff_of_true String.ofList_toList hlast

theorem splitOn_ended {texts : List String} (h : ∀ text ∈ texts, '\n' ∉ text.toList) :
    ((texts.map (· ++ "\n")).flatMap String.toList).splitOn '\n' =
      texts.map String.toList ++ [[]] := by
  induction texts with
  | nil => rfl
  | cons text texts ih =>
    have hline : (text ++ "\n").toList = text.toList ++ ['\n'] := by simp
    rw [List.map_cons, List.flatMap_cons, hline, List.append_assoc, List.singleton_append,
      List.splitOn_append_cons_self_of_not_mem (h text List.mem_cons_self),
      ih fun other hother => h other (List.mem_cons_of_mem _ hother)]
    rfl

theorem lines_join {texts : List String} (h : ∀ text ∈ texts, '\n' ∉ text.toList) :
    lines (String.join (texts.map (· ++ "\n"))) = texts.map dropCr := by
  rw [lines, String.toList_join, splitOn_ended h, List.dropLast_concat,
    List.getLast?_concat, List.map_append, List.map_map, List.map_map]
  exact List.append_nil _

def Unbroken (text : String) : Prop := '\n' ∉ text.toList ∧ '\r' ∉ text.toList

instance (text : String) : Decidable (Unbroken text) := inferInstanceAs (Decidable (_ ∧ _))

theorem Unbroken.append {text text' : String} (h : Unbroken text) (h' : Unbroken text') :
    Unbroken (text ++ text') := by
  rw [Unbroken, String.toList_append, List.mem_append, List.mem_append, not_or, not_or]
  exact ⟨⟨h.1, h'.1⟩, h.2, h'.2⟩

theorem Unbroken.intercalate {sep : String} {texts : List String} (hsep : Unbroken sep)
    (h : ∀ text ∈ texts, Unbroken text) : Unbroken (sep.intercalate texts) := by
  induction texts with
  | nil => exact ⟨List.not_mem_nil, List.not_mem_nil⟩
  | cons text texts ih =>
    have hrest := ih fun other hother => h other (List.mem_cons_of_mem _ hother)
    cases texts with
    | nil =>
      rw [String.intercalate_singleton]
      exact h text List.mem_cons_self
    | cons next texts =>
      rw [String.intercalate_cons_cons]
      exact ((h text List.mem_cons_self).append hsep).append hrest

theorem Unbroken.dropCr {text : String} (h : Unbroken text) : dropCr text = text :=
  dropCr_eq_self.mpr fun hlast => h.2 (List.mem_of_getLast? hlast)

theorem dropCr_append {pre : String} (hpre : Unbroken pre) (text : String) :
    dropCr (pre ++ text) = pre ++ dropCr text := by
  by_cases hempty : text = ""
  · subst hempty
    rw [String.append_empty, hpre.dropCr]
    exact String.append_empty.symm
  · have hchars : text.toList ≠ [] := fun hnil => hempty (String.toList_eq_nil_iff.mp hnil)
    rw [HerdrWebui.dropCr, HerdrWebui.dropCr, String.toList_append,
      List.getLast?_append_of_ne_nil _ hchars, List.dropLast_append_of_ne_nil hchars]
    split
    · rw [String.ofList_append, String.ofList_toList]
    · rw [String.ofList_append, String.ofList_toList]

theorem lines_join_unbroken {texts : List String} (h : ∀ text ∈ texts, Unbroken text) :
    lines (String.join (texts.map (· ++ "\n"))) = texts := by
  rw [lines_join fun text htext => (h text htext).1]
  exact (List.map_congr_left fun text htext => (h text htext).dropCr).trans (List.map_id texts)

/-- `str::split_whitespace`. -/
def splitWhitespace (text : String) : List String :=
  ((text.toList.splitOnP isWhitespace).filter (· ≠ [])).map String.ofList

/-- `str::starts_with`. -/
def hasPrefix (pre text : String) : Bool := pre.toList.isPrefixOf text.toList

/-- `str::ends_with`. -/
def hasSuffix (suf text : String) : Bool := suf.toList.isSuffixOf text.toList

/-- `str::strip_prefix`. -/
def stripPrefix (pre text : String) : Option String :=
  if hasPrefix pre text then some (String.ofList (text.toList.drop pre.length)) else none

/-- `str::strip_suffix`. -/
def stripSuffix (suf text : String) : Option String :=
  if hasSuffix suf text then
    some (String.ofList (text.toList.take (text.toList.length - suf.toList.length)))
  else none

theorem hasPrefix_append (pre text : String) : hasPrefix pre (pre ++ text) = true := by
  rw [hasPrefix, String.toList_append, List.isPrefixOf_iff_prefix]
  exact List.prefix_append _ _

theorem stripPrefix_subset {pre text rest : String} (h : stripPrefix pre text = some rest) :
    rest.toList ⊆ text.toList := by
  rw [stripPrefix] at h
  split at h
  · obtain rfl := Option.some.inj h
    rw [String.toList_ofList]
    exact List.drop_subset _ _
  · cases h

theorem stripPrefix_append (pre text : String) : stripPrefix pre (pre ++ text) = some text := by
  rw [stripPrefix, if_pos (hasPrefix_append pre text), String.toList_append,
    ← String.length_toList, List.drop_left, String.ofList_toList]

theorem hasPrefix_eq_false {pre text : String} {c d : Char} {rest : List Char}
    (hpre : pre.toList.head? = some c) (htext : text.toList = d :: rest) (h : c ≠ d) :
    hasPrefix pre text = false := by
  obtain ⟨more, hmore⟩ := List.head?_eq_some_iff.mp hpre
  rw [hasPrefix, htext, hmore, List.isPrefixOf_cons_cons, beq_eq_false_iff_ne.mpr h,
    Bool.false_and]

def trimStartGo (pre : List Char) : Nat → List Char → List Char
  | 0, chars => chars
  | n + 1, chars =>
    if pre.isPrefixOf chars then trimStartGo pre n (chars.drop pre.length) else chars

/-- `str::trim_start_matches`: the prefix is taken away as often as it is there. -/
def trimStartMatches (pre text : String) : String :=
  String.ofList (trimStartGo pre.toList text.length text.toList)

theorem length_trimStartGo (pre : List Char) (n : Nat) (chars : List Char) :
    (trimStartGo pre n chars).length ≤ chars.length := by
  induction n generalizing chars with
  | zero => exact le_rfl
  | succ n ih =>
    rw [trimStartGo]
    split
    · apply (ih _).trans
      rw [List.length_drop]
      exact Nat.sub_le _ _
    · exact le_rfl

theorem trimStartGo_eq_self {pre : List Char} (hpre : pre ≠ []) (n : Nat) (chars : List Char) :
    trimStartGo pre (n + 1) chars = chars ↔ pre.isPrefixOf chars = false := by
  rw [trimStartGo]
  cases hprefix : pre.isPrefixOf chars with
  | true =>
    rw [if_pos rfl]
    refine iff_of_false (fun hsame => ?_) Bool.noConfusion
    have hle := (List.isPrefixOf_iff_prefix.mp hprefix).length_le
    have hpos := List.length_pos_of_ne_nil hpre
    have hlength := length_trimStartGo pre n (chars.drop pre.length)
    rw [hsame, List.length_drop] at hlength
    omega
  | false =>
    rw [if_neg Bool.false_ne_true]
    exact iff_of_true rfl rfl

theorem trimStartMatches_append {pre : String} (hpre : 2 ≤ pre.length) (text : String) :
    trimStartMatches pre (pre ++ text) = text ↔ hasPrefix pre text = false := by
  have hne : pre.toList ≠ [] := by
    rintro hnil
    rw [← String.length_toList, hnil] at hpre
    cases hpre
  have hfuel : (pre ++ text).length = pre.length - 2 + text.length + 1 + 1 := by
    rw [String.length_append]
    omega
  have hstep : trimStartMatches pre (pre ++ text) = String.ofList
      (trimStartGo pre.toList (pre.length - 2 + text.length + 1) text.toList) := by
    rw [trimStartMatches, hfuel, trimStartGo, String.toList_append,
      if_pos (List.isPrefixOf_iff_prefix.mpr (List.prefix_append _ _)), List.drop_left]
  rw [hstep, ← String.toList_inj, String.toList_ofList]
  exact trimStartGo_eq_self hne _ _

theorem isEmpty_append {pre : String} (hpre : pre ≠ "") (text : String) :
    (pre ++ text).isEmpty = false := by
  refine Bool.eq_false_iff.mpr fun hempty => hpre ?_
  exact (String.append_eq_empty_iff.mp (String.isEmpty_iff.mp hempty)).1

/-- `str::contains`. -/
def hasInfix (part text : String) : Bool := decide (part.toList <:+: text.toList)

/-- `usize::from_str`. -/
def parseUsize (text : String) : Option Nat :=
  let digits := match text.toList with
    | '+' :: rest => rest
    | chars => chars
  if digits ≠ [] ∧ digits.all Char.isDigit then
    let n := digits.foldl (fun n c => 10 * n + (c.toNat - '0'.toNat)) 0
    if n < 2 ^ 64 then some n else none
  else none

example : lines "a\r\nb\n\nc\r" = ["a", "b", "", "c\r"] := by decide +kernel

theorem fromUTF8?_toUTF8 (s : String) : String.fromUTF8? s.toUTF8 = some s := by
  have hvalid : s.toUTF8.IsValidUTF8 := s.isValidUTF8
  rw [String.fromUTF8?, dif_pos hvalid]
  rfl

theorem toList_loop (bytes : ByteArray) (i : Nat) (acc : List UInt8) :
    ByteArray.toList.loop bytes i acc = acc.reverse ++ bytes.data.toList.drop i := by
  induction i, acc using ByteArray.toList.loop.induct bytes with
  | case1 i acc hlt ih =>
    have hlt' : i < bytes.data.toList.length := hlt
    have hget : bytes.get! i = bytes.data.toList[i] := getElem!_pos bytes.data i hlt
    rw [ByteArray.toList.loop, if_pos hlt, ih, List.drop_eq_getElem_cons hlt', hget]
    simp
  | case2 i acc hge =>
    have hge' : bytes.data.toList.length ≤ i := Nat.le_of_not_lt hge
    rw [ByteArray.toList.loop, if_neg hge, List.drop_of_length_le hge', List.append_nil]

theorem toUTF8_ofList {chars : List Char} (h : ∀ c ∈ chars, c.utf8Size = 1) :
    (String.ofList chars).toUTF8.data.toList = chars.map Char.toUInt8 := by
  have hbytes : (String.ofList chars).toUTF8 = chars.utf8Encode := String.toByteArray_ofList
  rw [hbytes]
  induction chars with
  | nil => rfl
  | cons c chars ih =>
    rw [List.forall_mem_cons] at h
    rw [List.utf8Encode_cons, List.utf8Encode_singleton,
      String.utf8EncodeChar_eq_singleton h.1, ByteArray.data_append, Array.toList_append,
      ih h.2 String.toByteArray_ofList]
    rfl

theorem toUTF8_toList_inj {s t : String} :
    s.toUTF8.toList = t.toUTF8.toList ↔ s = t := by
  constructor
  · intro h
    simp only [ByteArray.toList, toList_loop, List.reverse_nil, List.nil_append,
      List.drop_zero] at h
    have hdata : s.toUTF8.data = t.toUTF8.data := Array.toList_inj.mp h
    exact String.toByteArray_inj.mp (congrArg ByteArray.mk hdata)
  · rintro rfl
    rfl

end HerdrWebui
