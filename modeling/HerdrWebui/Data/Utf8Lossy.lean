import Mathlib.Tactic

/-!
Bytes read as UTF-8, where a replacement character stands for each longest start of a
sequence that goes no further.

Nothing here is about a particular program.
-/

namespace HerdrWebui

def isBetween (low high byte : UInt8) : Bool := low ≤ byte && byte ≤ high

/-- What the bytes behind the first of a sequence have to be. -/
def continuations (lead : UInt8) : List (UInt8 → Bool) :=
  let tail := isBetween 0x80 0xBF
  if isBetween 0xC2 0xDF lead then [tail]
  else if lead = 0xE0 then [isBetween 0xA0 0xBF, tail]
  else if lead = 0xED then [isBetween 0x80 0x9F, tail]
  else if isBetween 0xE1 0xEF lead then [tail, tail]
  else if lead = 0xF0 then [isBetween 0x90 0xBF, tail, tail]
  else if isBetween 0xF1 0xF3 lead then [tail, tail, tail]
  else if lead = 0xF4 then [isBetween 0x80 0x8F, tail, tail]
  else []

/-- How many bytes are what they have to be. -/
def countMatching : List (UInt8 → Bool) → List UInt8 → Nat
  | expected :: more, byte :: bytes =>
    if expected byte then countMatching more bytes + 1 else 0
  | _, _ => 0

/-- Six bits of each byte but the first, which has what is left by their number. -/
def codePoint (lead : UInt8) (tail : List UInt8) : Nat :=
  tail.foldl (fun value byte => value * 64 + byte.toNat % 64)
    (lead.toNat % 2 ^ (6 - tail.length))

def replacement : Char := '\ufffd'

/-- The character of a first byte and those behind it that match. -/
def sequenceChar (lead : UInt8) (tail : List UInt8) : Char :=
  if lead < 0x80 then Char.ofNat lead.toNat
  else if tail = [] ∨ tail.length < (continuations lead).length then replacement
  else Char.ofNat (codePoint lead tail)

/-- The characters, each with the bytes it stands for. -/
def lossyPieces : List UInt8 → List (Char × List UInt8)
  | [] => []
  | lead :: rest =>
    let count := countMatching (continuations lead) rest
    (sequenceChar lead (rest.take count), lead :: rest.take count) ::
      lossyPieces (rest.drop count)
termination_by bytes => bytes.length

def fromUtf8Lossy (bytes : List UInt8) : String :=
  String.ofList ((lossyPieces bytes).map (·.1))

theorem lossyPieces_bytes (bytes : List UInt8) : (lossyPieces bytes).flatMap (·.2) = bytes := by
  fun_induction lossyPieces bytes with
  | case1 => rfl
  | case2 lead rest count ih =>
    rw [List.flatMap_cons, ih, List.cons_append, List.take_append_drop]

/-- A character of ASCII is its byte; another has bytes that are not of ASCII. -/
def IsPiece (piece : Char × List UInt8) : Prop :=
  (∃ byte : UInt8, byte < 0x80 ∧ piece = (Char.ofNat byte.toNat, [byte])) ∨
    (0x80 ≤ piece.1.toNat ∧ piece.2 ≠ [] ∧ ∀ byte ∈ piece.2, ¬byte < 0x80)

theorem isBetween_toNat {low high byte : UInt8} (h : isBetween low high byte = true) :
    low.toNat ≤ byte.toNat ∧ byte.toNat ≤ high.toNat := by
  rw [isBetween, Bool.and_eq_true, decide_eq_true_eq, decide_eq_true_eq] at h
  exact ⟨UInt8.le_iff_toNat_le.mp h.1, UInt8.le_iff_toNat_le.mp h.2⟩

theorem forall₂_countMatching (expected : List (UInt8 → Bool)) (bytes : List UInt8) :
    List.Forall₂ (fun expected byte => expected byte = true)
      (expected.take (countMatching expected bytes))
      (bytes.take (countMatching expected bytes)) := by
  fun_induction countMatching expected bytes with
  | case1 expected more byte bytes hmatch ih => exact .cons hmatch ih
  | case2 => exact .nil
  | case3 => exact .nil

theorem exists_of_mem_matching {expected : List (UInt8 → Bool)} {bytes : List UInt8}
    {byte : UInt8} (h : byte ∈ bytes.take (countMatching expected bytes)) :
    ∃ matcher ∈ expected, matcher byte = true := by
  fun_induction countMatching expected bytes with
  | case1 expected more first bytes hmatch ih =>
    rcases List.mem_cons.mp h with rfl | hmore
    · exact ⟨expected, List.mem_cons_self, hmatch⟩
    · obtain ⟨matcher, hmem, hbyte⟩ := ih hmore
      exact ⟨matcher, List.mem_cons_of_mem _ hmem, hbyte⟩
  | case2 => exact absurd h List.not_mem_nil
  | case3 => exact absurd h List.not_mem_nil

theorem codePoint_valid {lead : UInt8} {tail : List UInt8} (hne : tail ≠ [])
    (h : List.Forall₂ (fun expected byte => expected byte = true) (continuations lead) tail) :
    0x80 ≤ codePoint lead tail ∧ (codePoint lead tail).isValidChar := by
  unfold continuations at h
  dsimp only at h
  split at h
  · next hlead =>
      rcases h with _ | ⟨h1, _ | _⟩
      have hlead := isBetween_toNat hlead
      have h1 := isBetween_toNat h1
      simp [codePoint, Nat.isValidChar] at *
      omega
  split at h
  · next hlead =>
      subst hlead
      rcases h with _ | ⟨h1, _ | ⟨h2, _ | _⟩⟩
      have h1 := isBetween_toNat h1
      simp [codePoint, Nat.isValidChar] at *
      omega
  split at h
  · next hlead =>
      subst hlead
      rcases h with _ | ⟨h1, _ | ⟨h2, _ | _⟩⟩
      have h1 := isBetween_toNat h1
      simp [codePoint, Nat.isValidChar] at *
      omega
  split at h
  · next hlead _ hsurrogate hnot =>
      rcases h with _ | ⟨h1, _ | ⟨h2, _ | _⟩⟩
      have hlead := isBetween_toNat hnot
      have hsurrogate : lead.toNat ≠ 0xED := fun heq => hsurrogate (UInt8.toNat_inj.mp heq)
      simp [codePoint, Nat.isValidChar] at *
      omega
  split at h
  · next hlead =>
      subst hlead
      rcases h with _ | ⟨h1, _ | ⟨h2, _ | ⟨h3, _ | _⟩⟩⟩
      have h1 := isBetween_toNat h1
      simp [codePoint, Nat.isValidChar] at *
      omega
  split at h
  · next hlead =>
      rcases h with _ | ⟨h1, _ | ⟨h2, _ | ⟨h3, _ | _⟩⟩⟩
      have hlead := isBetween_toNat hlead
      simp [codePoint, Nat.isValidChar] at *
      omega
  split at h
  · next hlead =>
      subst hlead
      rcases h with _ | ⟨h1, _ | ⟨h2, _ | ⟨h3, _ | _⟩⟩⟩
      have h1 := isBetween_toNat h1
      simp [codePoint, Nat.isValidChar] at *
      omega
  · cases h
    exact absurd rfl hne

theorem continuations_high {lead : UInt8} {expected : UInt8 → Bool}
    (h : expected ∈ continuations lead) {byte : UInt8} (hbyte : expected byte = true) :
    ¬byte < 0x80 := by
  have hrange {low high : UInt8} (hlow : 0x80 ≤ low.toNat)
      (hbetween : isBetween low high byte = true) : ¬byte < 0x80 := by
    intro hascii
    have hlt := UInt8.lt_iff_toNat_lt.mp hascii
    have hle := (isBetween_toNat hbetween).1
    have hlimit : (0x80 : UInt8).toNat = 0x80 := rfl
    omega
  have htail {low high : UInt8} {more : List (UInt8 → Bool)} (hlow : 0x80 ≤ low.toNat)
      (hmore : ∀ expected ∈ more, expected = isBetween 0x80 0xBF)
      (hmem : expected ∈ isBetween low high :: more) : ¬byte < 0x80 := by
    rcases List.mem_cons.mp hmem with rfl | hmem
    · exact hrange hlow hbyte
    · rw [hmore _ hmem] at hbyte
      exact hrange (by decide) hbyte
  unfold continuations at h
  dsimp only at h
  split_ifs at h
  all_goals first
    | exact htail (by decide) (by simp) h
    | exact absurd h List.not_mem_nil

theorem continuations_ascii {lead : UInt8} (h : lead < 0x80) : continuations lead = [] := by
  have hlt := UInt8.lt_iff_toNat_lt.mp h
  have hnot {low high : UInt8} (hlow : 0x80 ≤ low.toNat) : isBetween low high lead ≠ true := by
    intro hbetween
    have hle := (isBetween_toNat hbetween).1
    have hlimit : (0x80 : UInt8).toNat = 0x80 := rfl
    omega
  have hne {byte : UInt8} (hbyte : 0x80 ≤ byte.toNat) : lead ≠ byte := by
    rintro rfl
    have hlimit : (0x80 : UInt8).toNat = 0x80 := rfl
    omega
  unfold continuations
  simp only [hnot (by decide : 0x80 ≤ (0xC2 : UInt8).toNat),
    hnot (by decide : 0x80 ≤ (0xE1 : UInt8).toNat), hnot (by decide : 0x80 ≤ (0xF1 : UInt8).toNat),
    hne (by decide : 0x80 ≤ (0xE0 : UInt8).toNat), hne (by decide : 0x80 ≤ (0xED : UInt8).toNat),
    hne (by decide : 0x80 ≤ (0xF0 : UInt8).toNat), hne (by decide : 0x80 ≤ (0xF4 : UInt8).toNat),
    if_false]
  rfl

theorem isPiece_of_mem {bytes : List UInt8} {piece : Char × List UInt8}
    (h : piece ∈ lossyPieces bytes) : IsPiece piece := by
  fun_induction lossyPieces bytes with
  | case1 => exact absurd h List.not_mem_nil
  | case2 lead rest count ih =>
    rcases List.mem_cons.mp h with rfl | hrest
    · by_cases hascii : lead < 0x80
      · have hnone : count = 0 := by
          simp only [count, continuations_ascii hascii]
          rw [countMatching]
          simp
        left
        refine ⟨lead, hascii, ?_⟩
        rw [hnone, List.take_zero, sequenceChar, if_pos hascii]
      · right
        have hmatch := forall₂_countMatching (continuations lead) rest
        refine ⟨?_, List.cons_ne_nil _ _, ?_⟩
        · dsimp only
          rw [sequenceChar, if_neg hascii]
          split
          · decide
          · next hwhole =>
              rw [not_or, not_lt] at hwhole
              have htake : (continuations lead).take count = continuations lead := by
                apply List.take_of_length_le
                exact hwhole.2.trans (List.length_take_le _ _)
              change List.Forall₂ _ ((continuations lead).take count) _ at hmatch
              rw [htake] at hmatch
              obtain ⟨hlow, hvalid⟩ := codePoint_valid hwhole.1 hmatch
              rw [Char.ofNat, dif_pos hvalid]
              exact hlow
        · intro byte hbyte
          rcases List.mem_cons.mp hbyte with rfl | htail
          · exact hascii
          · obtain ⟨expected, hmem, hexpected⟩ := exists_of_mem_matching htail
            exact continuations_high hmem hexpected
    · exact ih hrest

end HerdrWebui
