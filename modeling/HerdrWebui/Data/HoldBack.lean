import Mathlib.Tactic

/-!
Sequences in a text are replaced while the text comes in pieces. What may be the start of
a sequence that is not complete yet is held back and goes in front of the next piece.
However the text is cut, the same is put out and the same is held.

Nothing here is about a particular program.
-/

namespace HerdrWebui

variable {α : Type}

section search

variable [DecidableEq α]

def indexOf (word : List α) : List α → Option Nat
  | [] => if word = [] then some 0 else none
  | x :: text => if word.isPrefixOf (x :: text) then some 0 else (indexOf word text).map (· + 1)

theorem indexOf_eq_some_iff {word : List α} (hne : word ≠ []) {text : List α} {i : Nat} :
    indexOf word text = some i ↔ word <+: text.drop i ∧ ∀ j < i, ¬word <+: text.drop j := by
  induction text generalizing i with
  | nil =>
    rw [indexOf, if_neg hne, List.drop_nil, List.prefix_nil]
    simp [hne]
  | cons x text ih =>
    rw [indexOf]
    split
    · next hpre =>
        rw [List.isPrefixOf_iff_prefix] at hpre
        rw [Option.some.injEq]
        constructor
        · rintro rfl
          exact ⟨hpre, fun j hj => absurd hj (Nat.not_lt_zero j)⟩
        · rintro ⟨-, hfirst⟩
          by_contra hpos
          exact hfirst 0 (by omega) hpre
    · next hnot =>
        rw [List.isPrefixOf_iff_prefix] at hnot
        cases i with
        | zero =>
          rw [List.drop_zero]
          simp [hnot]
        | succ i =>
          rw [Option.map_eq_some_iff, List.drop_succ_cons]
          simp only [Nat.add_right_cancel_iff, exists_eq_right, ih]
          refine and_congr_right fun _ => ⟨fun h j hj => ?_, fun h j hj => ?_⟩
          · cases j with
            | zero => exact hnot
            | succ j => exact h j (by omega)
          · exact h (j + 1) (by omega)

theorem indexOf_eq_none_iff {word : List α} (hne : word ≠ []) {text : List α} :
    indexOf word text = none ↔ ∀ j, ¬word <+: text.drop j := by
  constructor
  · intro h j hj
    have hex : ∃ i, word <+: text.drop i := ⟨j, hj⟩
    have hfirst : ∀ k < Nat.find hex, ¬word <+: text.drop k := fun k hk => Nat.find_min hex hk
    rw [(indexOf_eq_some_iff hne).mpr ⟨Nat.find_spec hex, hfirst⟩] at h
    cases h
  · intro h
    cases hindex : indexOf word text with
    | none => rfl
    | some i => exact absurd ((indexOf_eq_some_iff hne).mp hindex).1 (h i)

end search

/-- The first `n` characters are the first that end with one of the words. -/
def EndsFirst (ends : List (List α)) (text : List α) (n : Nat) : Prop :=
  n ≤ text.length ∧ (∃ word ∈ ends, word <:+ text.take n) ∧
    ∀ k < n, ∀ word ∈ ends, ¬word <:+ text.take k

namespace EndsFirst

variable {ends : List (List α)} {text : List α} {n : Nat}

theorem append (h : EndsFirst ends text n) (more : List α) :
    EndsFirst ends (text ++ more) n := by
  obtain ⟨hlength, hend, hfirst⟩ := h
  refine ⟨?_, ?_, fun k hk => ?_⟩
  · rw [List.length_append]
    omega
  · rwa [List.take_append_of_le_length hlength]
  · rw [List.take_append_of_le_length (by omega)]
    exact hfirst k hk

theorem take (h : EndsFirst ends text n) : EndsFirst ends (text.take n) n := by
  obtain ⟨hlength, hend, hfirst⟩ := h
  refine ⟨?_, ?_, fun k hk => ?_⟩
  · rw [List.length_take]
    omega
  · rwa [List.take_take, Nat.min_self]
  · rw [List.take_take, Nat.min_eq_left (by omega)]
    exact hfirst k hk

theorem unique {m : Nat} (h : EndsFirst ends text n) (h' : EndsFirst ends text m) : n = m := by
  obtain ⟨word, hword, hsuffix⟩ := h.2.1
  obtain ⟨word', hword', hsuffix'⟩ := h'.2.1
  by_contra hne
  rcases Nat.lt_or_gt_of_ne hne with hlt | hgt
  · exact h'.2.2 n hlt word hword hsuffix
  · exact h.2.2 m hgt word' hword' hsuffix'

theorem exists_le {k : Nat} (hk : k ≤ text.length) {word : List α} (hword : word ∈ ends)
    (h : word <:+ text.take k) : ∃ m ≤ k, EndsFirst ends text m := by
  classical
  have hex : ∃ m, ∃ word ∈ ends, word <:+ text.take m := ⟨k, word, hword, h⟩
  have hle : Nat.find hex ≤ k := Nat.find_le ⟨word, hword, h⟩
  refine ⟨Nat.find hex, hle, hle.trans hk, Nat.find_spec hex, fun j hj word hword hend => ?_⟩
  exact Nat.find_min hex hj ⟨word, hword, hend⟩

theorem pair {word word' : List α} (h : EndsFirst [word] text n)
    (hle : ∀ m, EndsFirst [word'] text m → n ≤ m) :
    EndsFirst [word, word'] text n ∧ EndsFirst [word', word] text n := by
  obtain ⟨hlength, ⟨first, hfirst, hend⟩, hnone⟩ := h
  obtain rfl := List.mem_singleton.mp hfirst
  have hother (k : Nat) (hk : k < n) : ¬word' <:+ text.take k := by
    intro hsuffix
    obtain ⟨m, hm, hends⟩ := exists_le (by omega) List.mem_cons_self hsuffix
    have hn := hle m hends
    omega
  have hsame (k : Nat) (hk : k < n) : ¬first <:+ text.take k :=
    hnone k hk first List.mem_cons_self
  refine ⟨⟨hlength, ⟨first, by simp, hend⟩, fun k hk => ?_⟩,
    ⟨hlength, ⟨first, by simp, hend⟩, fun k hk => ?_⟩⟩
  · simp [hother k hk, hsame k hk]
  · simp [hother k hk, hsame k hk]

end EndsFirst

theorem prefix_drop_iff {word text : List α} {i : Nat} (hi : i ≤ text.length) :
    word <+: text.drop i ↔ i + word.length ≤ text.length ∧
      word <:+ text.take (i + word.length) := by
  constructor
  · rintro ⟨rest, hrest⟩
    have hlength := congrArg List.length hrest
    rw [List.length_append, List.length_drop] at hlength
    refine ⟨by omega, text.take i, ?_⟩
    rw [List.take_add, ← hrest, List.take_left]
  · rintro ⟨hlength, front, hfront⟩
    have hi' := congrArg List.length hfront
    rw [List.length_append, List.length_take_of_le hlength] at hi'
    obtain rfl : front.length = i := by omega
    refine ⟨text.drop (front.length + word.length), ?_⟩
    conv_rhs => rw [← List.take_append_drop (front.length + word.length) text, ← hfront]
    rw [List.append_assoc, List.drop_left]

theorem indexOf_eq_some_iff_endsFirst [DecidableEq α] {word : List α} (hne : word ≠ [])
    {text : List α} {i : Nat} :
    indexOf word text = some i ↔ EndsFirst [word] text (i + word.length) := by
  have hpos := List.length_pos_iff.mpr hne
  have hoccurs {j : Nat} (h : word <+: text.drop j) : j ≤ text.length := by
    have hlength := h.length_le
    rw [List.length_drop] at hlength
    omega
  rw [indexOf_eq_some_iff hne, EndsFirst]
  simp only [List.mem_singleton, exists_eq_left, forall_eq]
  constructor
  · rintro ⟨hpre, hfirst⟩
    obtain ⟨hlength, hsuffix⟩ := (prefix_drop_iff (hoccurs hpre)).mp hpre
    refine ⟨hlength, hsuffix, fun k hk hother => ?_⟩
    have hk' := hother.length_le
    rw [List.length_take] at hk'
    apply hfirst (k - word.length) (by omega)
    apply (prefix_drop_iff (by omega)).mpr
    rw [Nat.sub_add_cancel (by omega)]
    exact ⟨by omega, hother⟩
  · rintro ⟨hlength, hsuffix, hfirst⟩
    refine ⟨(prefix_drop_iff (by omega)).mpr ⟨hlength, hsuffix⟩, fun j hj hother => ?_⟩
    exact hfirst (j + word.length) (by omega) ((prefix_drop_iff (by omega)).mp hother).2

/-- No word stands in the text, and none has begun at its end. -/
def Clean (words : List (List α)) (text : List α) : Prop :=
  ∀ i < text.length, ∀ word ∈ words, ¬word <+: text.drop i ∧ ¬text.drop i <+: word

theorem Clean.append {words : List (List α)} {text more : List α} (h : Clean words text)
    (hmore : Clean words more) : Clean words (text ++ more) := by
  intro i hi word hword
  by_cases hwithin : i < text.length
  · obtain ⟨hstart, hpending⟩ := h i hwithin word hword
    rw [List.drop_append_of_le_length (by omega)]
    constructor
    · intro hpre
      rcases List.prefix_or_prefix_of_prefix hpre (List.prefix_append _ more) with h | h
      · exact hstart h
      · exact hpending h
    · exact fun hpre => hpending ((List.prefix_append _ more).trans hpre)
  · rw [List.length_append] at hi
    obtain ⟨j, rfl⟩ : ∃ j, i = text.length + j := ⟨i - text.length, by omega⟩
    rw [List.drop_length_add_append]
    exact hmore j (by omega) word hword

/-- Words that start a sequence, how long the sequence at the start of a text is once it is
complete, and what stands in its place. A complete sequence stays as long as it is. -/
structure Scanner (α : Type) where
  starts : List (List α)
  seqEnd : List α → Option Nat
  replaced : List α → List α
  starts_ne_nil : [] ∉ starts
  seqEnd_pos : ∀ {text n}, seqEnd text = some n → 0 < n
  seqEnd_le : ∀ {text n}, seqEnd text = some n → n ≤ text.length
  seqEnd_append : ∀ {text n}, seqEnd text = some n → ∀ more, seqEnd (text ++ more) = some n
  take_sequence : ∀ {text n word}, word ∈ starts → word <+: text → seqEnd text = some n →
    word <+: text.take n ∧ seqEnd (text.take n) = some n

namespace Scanner

variable [DecidableEq α] (scanner : Scanner α)

def isStart (text : List α) : Bool := scanner.starts.any (·.isPrefixOf text)

/-- The text is the start of one of the words. -/
def isPending (text : List α) : Bool := scanner.starts.any text.isPrefixOf

/-- What is put out for a text, and what is held of it. -/
def filter : List α → List α × List α
  | [] => ([], [])
  | c :: rest =>
    if scanner.isStart (c :: rest) then
      match _h : scanner.seqEnd (c :: rest) with
      | none => ([], c :: rest)
      | some n =>
        let more := filter ((c :: rest).drop n)
        (scanner.replaced ((c :: rest).take n) ++ more.1, more.2)
    else if scanner.isPending (c :: rest) then ([], c :: rest)
    else (c :: (filter rest).1, (filter rest).2)
termination_by text => text.length
decreasing_by
  · have hpos := scanner.seqEnd_pos _h
    simp only [List.length_drop, List.length_cons]
    omega
  all_goals simp

variable {scanner}

theorem isStart_iff {text : List α} :
    scanner.isStart text = true ↔ ∃ word ∈ scanner.starts, word <+: text := by
  simp [isStart, List.isPrefixOf_iff_prefix]

theorem isPending_iff {text : List α} :
    scanner.isPending text = true ↔ ∃ word ∈ scanner.starts, text <+: word := by
  simp [isPending, List.isPrefixOf_iff_prefix]

theorem filter_nil : scanner.filter [] = ([], []) := by rw [filter]

theorem filter_open {text : List α} (hstart : scanner.isStart text = true)
    (hend : scanner.seqEnd text = none) : scanner.filter text = ([], text) := by
  cases text with
  | nil => rw [filter]
  | cons c rest =>
    rw [filter, if_pos hstart]
    split
    · rfl
    · next n hsome =>
        rw [hend] at hsome
        cases hsome

theorem filter_sequence {text : List α} {n : Nat} (hstart : scanner.isStart text = true)
    (hend : scanner.seqEnd text = some n) :
    scanner.filter text =
      (scanner.replaced (text.take n) ++ (scanner.filter (text.drop n)).1,
        (scanner.filter (text.drop n)).2) := by
  cases text with
  | nil =>
    have hpos := scanner.seqEnd_pos hend
    have hle := scanner.seqEnd_le hend
    rw [List.length_nil] at hle
    omega
  | cons c rest =>
    rw [filter, if_pos hstart]
    split
    · next hnone =>
        rw [hend] at hnone
        cases hnone
    · next m hsome =>
        obtain rfl := Option.some.inj (hend.symm.trans hsome)
        rfl

theorem filter_pending {text : List α} (hstart : scanner.isStart text = false)
    (hpending : scanner.isPending text = true) : scanner.filter text = ([], text) := by
  cases text with
  | nil => rw [filter]
  | cons c rest => rw [filter, hstart, if_neg Bool.false_ne_true, if_pos hpending]

theorem filter_plain {c : α} {rest : List α} (hstart : scanner.isStart (c :: rest) = false)
    (hpending : scanner.isPending (c :: rest) = false) :
    scanner.filter (c :: rest) = (c :: (scanner.filter rest).1, (scanner.filter rest).2) := by
  rw [filter, hstart, if_neg Bool.false_ne_true, hpending, if_neg Bool.false_ne_true]

theorem filter_skip {front rest : List α}
    (h : ∀ i < front.length, scanner.isStart ((front ++ rest).drop i) = false ∧
      scanner.isPending ((front ++ rest).drop i) = false) :
    scanner.filter (front ++ rest) =
      (front ++ (scanner.filter rest).1, (scanner.filter rest).2) := by
  induction front with
  | nil => rfl
  | cons c front ih =>
    obtain ⟨hstart, hpending⟩ := h 0 (by simp)
    rw [List.drop_zero, List.cons_append] at hstart hpending
    rw [List.cons_append, filter_plain hstart hpending, ih]
    · rfl
    · intro i hi
      exact h (i + 1) (by simpa using hi)

theorem filter_skip_take (text : List α) (n : Nat)
    (h : ∀ i < n, scanner.isStart (text.drop i) = false ∧
      scanner.isPending (text.drop i) = false) :
    scanner.filter text =
      (text.take n ++ (scanner.filter (text.drop n)).1, (scanner.filter (text.drop n)).2) := by
  conv_lhs => rw [← List.take_append_drop n text]
  apply filter_skip
  intro i hi
  rw [List.take_append_drop]
  exact h i (hi.trans_le (List.length_take_le n text))

/-- A text without a word, and without the start of one at its end, is put out as it is. -/
theorem filter_clean {text : List α} (h : Clean scanner.starts text) :
    scanner.filter text = (text, []) := by
  have hskip (rest : List α) (hrest : rest = []) : scanner.filter (text ++ rest) =
      (text ++ (scanner.filter rest).1, (scanner.filter rest).2) := by
    apply filter_skip
    intro i hi
    rw [hrest, List.append_nil, Bool.eq_false_iff, Bool.eq_false_iff, ne_eq, ne_eq, isStart_iff,
      isPending_iff]
    constructor
    · rintro ⟨word, hword, hpre⟩
      exact (h i hi word hword).1 hpre
    · rintro ⟨word, hword, hpre⟩
      exact (h i hi word hword).2 hpre
  have hwhole := hskip [] rfl
  rwa [List.append_nil, filter_nil, List.append_nil] at hwhole

/-- The text is what is held behind some parts, of which only sequences are replaced. -/
theorem filter_parts (text : List α) :
    ∃ parts : List (List α × List α),
      (∀ part ∈ parts, part.2 = part.1 ∨
        (scanner.isStart part.1 = true ∧ scanner.seqEnd part.1 = some part.1.length ∧
          part.2 = scanner.replaced part.1)) ∧
      text = parts.flatMap (·.1) ++ (scanner.filter text).2 ∧
      (scanner.filter text).1 = parts.flatMap (·.2) := by
  fun_induction scanner.filter text with
  | case1 => exact ⟨[], by simp, rfl, rfl⟩
  | case2 c rest hstart hend => exact ⟨[], by simp, rfl, rfl⟩
  | case3 c rest hstart n hend later ih =>
    obtain ⟨parts, hparts, htext, hout⟩ := ih
    have hle := scanner.seqEnd_le hend
    have htake : ((c :: rest).take n).length = n := List.length_take_of_le hle
    obtain ⟨word, hword, hpre⟩ := isStart_iff.mp hstart
    obtain ⟨hpre', hend'⟩ := scanner.take_sequence hword hpre hend
    refine ⟨((c :: rest).take n, scanner.replaced ((c :: rest).take n)) :: parts, ?_, ?_, ?_⟩
    · rw [List.forall_mem_cons]
      exact ⟨.inr ⟨isStart_iff.mpr ⟨word, hword, hpre'⟩, by rw [hend', htake], rfl⟩, hparts⟩
    · rw [List.flatMap_cons, List.append_assoc, ← htext, List.take_append_drop]
    · rw [List.flatMap_cons, ← hout]
  | case4 c rest hstart hpending => exact ⟨[], by simp, rfl, rfl⟩
  | case5 c rest hstart hpending ih =>
    obtain ⟨parts, hparts, htext, hout⟩ := ih
    refine ⟨([c], [c]) :: parts, ?_, ?_, ?_⟩
    · rw [List.forall_mem_cons]
      exact ⟨.inl rfl, hparts⟩
    · rw [List.flatMap_cons, List.append_assoc, ← htext, List.singleton_append]
    · rw [List.flatMap_cons, ← hout, List.singleton_append]

theorem filter_eq_nil {text : List α} (hreplaced : ∀ seq, scanner.replaced seq = [] → seq = [])
    (h : scanner.filter text = ([], [])) : text = [] := by
  cases text with
  | nil => rfl
  | cons c rest =>
    rw [filter] at h
    split at h
    · split at h
      · simp at h
      · next n hend =>
          have hpos := scanner.seqEnd_pos hend
          have hout := (List.append_eq_nil_iff.mp (Prod.mk.inj h).1).1
          have htake := hreplaced _ hout
          rw [List.take_eq_nil_iff] at htake
          rcases htake with hzero | hnil
          · omega
          · cases hnil
    · split at h
      · simp at h
      · simp at h

theorem plain_append {text : List α} (hstart : scanner.isStart text = false)
    (hpending : scanner.isPending text = false) (more : List α) :
    scanner.isStart (text ++ more) = false ∧ scanner.isPending (text ++ more) = false := by
  rw [Bool.eq_false_iff, ne_eq, isStart_iff] at hstart ⊢
  rw [Bool.eq_false_iff, ne_eq, isPending_iff] at hpending ⊢
  constructor
  · rintro ⟨word, hword, hpre⟩
    rcases List.prefix_or_prefix_of_prefix hpre (List.prefix_append text more) with h | h
    · exact hstart ⟨word, hword, h⟩
    · exact hpending ⟨word, hword, h⟩
  · rintro ⟨word, hword, hpre⟩
    exact hpending ⟨word, hword, (List.prefix_append text more).trans hpre⟩

/-- However a text is cut, the same is put out, and the same is held in the end. -/
theorem filter_append (text more : List α) :
    scanner.filter (text ++ more) =
      ((scanner.filter text).1 ++ (scanner.filter ((scanner.filter text).2 ++ more)).1,
        (scanner.filter ((scanner.filter text).2 ++ more)).2) := by
  fun_induction scanner.filter text with
  | case1 => rfl
  | case2 c rest hstart hend => rfl
  | case3 c rest hstart n hend later ih =>
    have hstart' : scanner.isStart (c :: rest ++ more) = true := by
      obtain ⟨word, hword, hpre⟩ := isStart_iff.mp hstart
      exact isStart_iff.mpr ⟨word, hword, hpre.trans (List.prefix_append _ _)⟩
    have hle := scanner.seqEnd_le hend
    rw [filter_sequence hstart' (scanner.seqEnd_append hend more),
      List.take_append_of_le_length hle, List.drop_append_of_le_length hle, ih,
      List.append_assoc]
  | case4 c rest hstart hpending => rfl
  | case5 c rest hstart hpending ih =>
    obtain ⟨hstart', hpending'⟩ :=
      plain_append (Bool.not_eq_true _ ▸ hstart) (Bool.not_eq_true _ ▸ hpending) more
    rw [List.cons_append] at hstart' hpending'
    rw [List.cons_append, filter_plain hstart' hpending', ih]
    rfl

theorem filter_held (text : List α) :
    scanner.filter (scanner.filter text).2 = ([], (scanner.filter text).2) := by
  have hagain := scanner.filter_append text []
  rw [List.append_nil, List.append_nil] at hagain
  have hout := (Prod.mk.inj hagain).1
  rw [List.self_eq_append_right] at hout
  exact Prod.ext hout (Prod.mk.inj hagain).2.symm

end Scanner

end HerdrWebui
