import HerdrWebui.Data.Utf8
import HerdrWebui.Transcript.Images

/-!
Base64 both ways. Three bytes and four sextets are one number in two bases. A short last
chunk has bits that belong to no byte: the encoder leaves them zero, and the decoder does
not look at them.
-/

namespace HerdrWebui.Transcript

def base64Char (n : Nat) : Char := Char.ofNat (base64Alphabet.getD (n &&& 63) 0).toNat

/-- The four characters of a chunk of up to three bytes. -/
def encodeChunk (chunk : List UInt8) : List Char :=
  let b0 := (chunk.getD 0 0).toNat
  let b1 := (chunk.getD 1 0).toNat
  let b2 := (chunk.getD 2 0).toNat
  let n := b0 <<< 16 ||| b1 <<< 8 ||| b2
  [base64Char (n >>> 18), base64Char (n >>> 12),
    if chunk.length > 1 then base64Char (n >>> 6) else '=',
    if chunk.length > 2 then base64Char n else '=']

def encodeChunks : List UInt8 → List Char
  | [] => []
  | b0 :: b1 :: b2 :: rest => encodeChunk [b0, b1, b2] ++ encodeChunks rest
  | chunk => encodeChunk chunk

/-- The transcript and the asset upload have the same encoder. -/
def base64Encode (data : List UInt8) : String := String.ofList (encodeChunks data)

def joinSextets (s0 s1 s2 s3 : Nat) : Nat := s0 <<< 18 ||| s1 <<< 12 ||| s2 <<< 6 ||| s3

def joinBytes (b0 b1 b2 : Nat) : Nat := b0 <<< 16 ||| b1 <<< 8 ||| b2

theorem shiftLeft_or {a b i : Nat} (h : b < 2 ^ i) : a <<< i ||| b = a * 2 ^ i + b := by
  rw [← Nat.shiftLeft_add_eq_or_of_lt h, Nat.shiftLeft_eq]

theorem joinBytes_eq {b0 b1 b2 : Nat} (h1 : b1 < 256) (h2 : b2 < 256) :
    joinBytes b0 b1 b2 = b0 * 65536 + b1 * 256 + b2 := by
  have hlow : b1 <<< 8 ||| b2 = b1 * 256 + b2 := shiftLeft_or h2
  have hhigh : b0 <<< 16 ||| (b1 * 256 + b2) = b0 * 65536 + (b1 * 256 + b2) :=
    shiftLeft_or (by omega)
  rw [joinBytes, Nat.or_assoc, hlow, hhigh]
  omega

theorem joinSextets_eq {s0 s1 s2 s3 : Nat} (h1 : s1 < 64) (h2 : s2 < 64) (h3 : s3 < 64) :
    joinSextets s0 s1 s2 s3 = s0 * 262144 + s1 * 4096 + s2 * 64 + s3 := by
  have hlow : s2 <<< 6 ||| s3 = s2 * 64 + s3 := shiftLeft_or h3
  have hmid : s1 <<< 12 ||| (s2 * 64 + s3) = s1 * 4096 + (s2 * 64 + s3) :=
    shiftLeft_or (by omega)
  have hhigh : s0 <<< 18 ||| (s1 * 4096 + (s2 * 64 + s3)) =
      s0 * 262144 + (s1 * 4096 + (s2 * 64 + s3)) := shiftLeft_or (by omega)
  rw [joinSextets, Nat.or_assoc, Nat.or_assoc, hlow, hmid, hhigh]
  omega

def sextetByte (value : Nat) : UInt8 := base64Alphabet.getD value 0

theorem sextetByte_spec : ∀ value < 64,
    base64Alphabet.idxOf? (sextetByte value) = some value ∧
      sextetByte value ≠ '='.toUInt8 ∧
      String.utf8EncodeChar (Char.ofNat (sextetByte value).toNat) = [sextetByte value] := by
  decide +kernel

theorem base64Alphabet_length : base64Alphabet.length = 64 := by decide +kernel

theorem eq_sextetByte {byte : UInt8} {value : Nat}
    (h : base64Alphabet.idxOf? byte = some value) :
    value < 64 ∧ byte = sextetByte value := by
  obtain ⟨hlt, hget, -⟩ := List.findIdx?_eq_some_iff_getElem.mp h
  rw [base64Alphabet_length] at hlt
  refine ⟨hlt, ?_⟩
  rw [sextetByte, List.getD_eq_getElem?_getD, List.getElem?_eq_getElem, Option.getD_some]
  exact (beq_iff_eq.mp hget).symm

theorem utf8_base64Char (n : Nat) :
    String.utf8EncodeChar (base64Char n) = [sextetByte (n % 64)] := by
  have hlow : n &&& 63 = n % 64 := Nat.and_two_pow_sub_one_eq_mod n 6
  rw [base64Char, hlow]
  exact (sextetByte_spec _ (Nat.mod_lt _ (by decide))).2.2

section Chunk

variable {s0 s1 s2 s3 : Nat}

theorem readSextets_sextetByte {value slot : Nat} {rest : List UInt8} (h : value < 64) :
    readSextets slot 0 (sextetByte value :: rest) =
      (readSextets (slot + 1) 0 rest).map fun read => (value :: read.1, read.2) := by
  obtain ⟨hvalue, hpad, -⟩ := sextetByte_spec value h
  rw [readSextets, if_neg hpad, if_neg (Nat.lt_irrefl 0), hvalue]
  rfl

theorem decodeChunk_full (h0 : s0 < 64) (h1 : s1 < 64) (h2 : s2 < 64) (h3 : s3 < 64) :
    decodeChunk [sextetByte s0, sextetByte s1, sextetByte s2, sextetByte s3] =
      some [UInt8.ofNat (joinSextets s0 s1 s2 s3 >>> 16),
        UInt8.ofNat (joinSextets s0 s1 s2 s3 >>> 8), UInt8.ofNat (joinSextets s0 s1 s2 s3)] := by
  rw [decodeChunk, readSextets_sextetByte h0, readSextets_sextetByte h1,
    readSextets_sextetByte h2, readSextets_sextetByte h3]
  rfl

theorem decodeChunk_one_pad (h0 : s0 < 64) (h1 : s1 < 64) (h2 : s2 < 64) :
    decodeChunk [sextetByte s0, sextetByte s1, sextetByte s2, '='.toUInt8] =
      some [UInt8.ofNat (joinSextets s0 s1 s2 0 >>> 16),
        UInt8.ofNat (joinSextets s0 s1 s2 0 >>> 8)] := by
  rw [decodeChunk, readSextets_sextetByte h0, readSextets_sextetByte h1,
    readSextets_sextetByte h2]
  rfl

theorem decodeChunk_two_pads (h0 : s0 < 64) (h1 : s1 < 64) :
    decodeChunk [sextetByte s0, sextetByte s1, '='.toUInt8, '='.toUInt8] =
      some [UInt8.ofNat (joinSextets s0 s1 0 0 >>> 16)] := by
  rw [decodeChunk, readSextets_sextetByte h0, readSextets_sextetByte h1]
  rfl

end Chunk

/-- What a chunk that decodes is made of, and the bytes it gives. -/
inductive Quad : List UInt8 → List UInt8 → Prop
  | full {s0 s1 s2 s3 : Nat} (h0 : s0 < 64) (h1 : s1 < 64) (h2 : s2 < 64) (h3 : s3 < 64) :
      Quad [sextetByte s0, sextetByte s1, sextetByte s2, sextetByte s3]
        [UInt8.ofNat (joinSextets s0 s1 s2 s3 >>> 16),
          UInt8.ofNat (joinSextets s0 s1 s2 s3 >>> 8), UInt8.ofNat (joinSextets s0 s1 s2 s3)]
  | onePad {s0 s1 s2 : Nat} (h0 : s0 < 64) (h1 : s1 < 64) (h2 : s2 < 64) :
      Quad [sextetByte s0, sextetByte s1, sextetByte s2, '='.toUInt8]
        [UInt8.ofNat (joinSextets s0 s1 s2 0 >>> 16),
          UInt8.ofNat (joinSextets s0 s1 s2 0 >>> 8)]
  | twoPads {s0 s1 : Nat} (h0 : s0 < 64) (h1 : s1 < 64) :
      Quad [sextetByte s0, sextetByte s1, '='.toUInt8, '='.toUInt8]
        [UInt8.ofNat (joinSextets s0 s1 0 0 >>> 16)]

theorem readSextets_data {slot : Nat} {byte : UInt8} {rest : List UInt8}
    {read : List Nat × Nat} (hpad : byte ≠ '='.toUInt8)
    (h : readSextets slot 0 (byte :: rest) = some read) :
    ∃ value < 64, ∃ more, byte = sextetByte value ∧
      readSextets (slot + 1) 0 rest = some more ∧ read = (value :: more.1, more.2) := by
  rw [readSextets, if_neg hpad, if_neg (Nat.lt_irrefl 0)] at h
  obtain ⟨value, hvalue, hrest⟩ := Option.bind_eq_some_iff.mp h
  obtain ⟨more, hmore, rfl⟩ := Option.map_eq_some_iff.mp hrest
  obtain ⟨hlt, hbyte⟩ := eq_sextetByte hvalue
  exact ⟨value, hlt, more, hbyte, hmore, rfl⟩

theorem readSextets_early {slot : Nat} {byte : UInt8} {rest : List UInt8}
    {read : List Nat × Nat} (hslot : slot < 2)
    (h : readSextets slot 0 (byte :: rest) = some read) : byte ≠ '='.toUInt8 := by
  rintro rfl
  rw [readSextets, if_pos rfl, if_pos hslot] at h
  cases h

theorem readSextets_pad {byte : UInt8} {read : List Nat × Nat}
    (h : readSextets 3 1 [byte] = some read) : byte = '='.toUInt8 ∧ read = ([0], 2) := by
  by_cases hpad : byte = '='.toUInt8
  · subst hpad
    exact ⟨rfl, (Option.some.inj h).symm⟩
  · rw [readSextets, if_neg hpad, if_pos Nat.one_pos] at h
    cases h

theorem quad_of_decodeChunk {c0 c1 c2 c3 : UInt8} {bytes : List UInt8}
    (h : decodeChunk [c0, c1, c2, c3] = some bytes) : Quad [c0, c1, c2, c3] bytes := by
  cases hread : readSextets 0 0 [c0, c1, c2, c3] with
  | none =>
    rw [decodeChunk, hread] at h
    cases h
  | some read =>
    have hc0 := readSextets_early Nat.two_pos hread
    obtain ⟨s0, h0, read1, rfl, hread1, -⟩ := readSextets_data hc0 hread
    have hc1 := readSextets_early Nat.one_lt_two hread1
    obtain ⟨s1, h1, read2, rfl, hread2, -⟩ := readSextets_data hc1 hread1
    by_cases hc2 : c2 = '='.toUInt8
    · subst hc2
      obtain ⟨read3, hread3, -⟩ := Option.map_eq_some_iff.mp hread2
      obtain ⟨rfl, -⟩ := readSextets_pad hread3
      rw [decodeChunk_two_pads h0 h1] at h
      exact Option.some.inj h ▸ .twoPads h0 h1
    · obtain ⟨s2, h2, read3, rfl, hread3, -⟩ := readSextets_data hc2 hread2
      by_cases hc3 : c3 = '='.toUInt8
      · subst hc3
        rw [decodeChunk_one_pad h0 h1 h2] at h
        exact Option.some.inj h ▸ .onePad h0 h1 h2
      · obtain ⟨s3, h3, read4, rfl, -⟩ := readSextets_data hc3 hread3
        rw [decodeChunk_full h0 h1 h2 h3] at h
        exact Option.some.inj h ▸ .full h0 h1 h2 h3

theorem utf8_encodeChunk_full (b0 b1 b2 : UInt8) :
    utf8 (encodeChunk [b0, b1, b2]) =
      let n := joinBytes b0.toNat b1.toNat b2.toNat
      [sextetByte (n / 262144 % 64), sextetByte (n / 4096 % 64), sextetByte (n / 64 % 64),
        sextetByte (n % 64)] := by
  simp [encodeChunk, utf8, utf8_base64Char, joinBytes, Nat.shiftRight_eq_div_pow]

theorem utf8_encodeChunk_one_pad (b0 b1 : UInt8) :
    utf8 (encodeChunk [b0, b1]) =
      let n := joinBytes b0.toNat b1.toNat 0
      [sextetByte (n / 262144 % 64), sextetByte (n / 4096 % 64), sextetByte (n / 64 % 64),
        '='.toUInt8] := by
  simp [encodeChunk, utf8, utf8_base64Char, joinBytes, Nat.shiftRight_eq_div_pow]
  rfl

theorem utf8_encodeChunk_two_pads (b0 : UInt8) :
    utf8 (encodeChunk [b0]) =
      let n := joinBytes b0.toNat 0 0
      [sextetByte (n / 262144 % 64), sextetByte (n / 4096 % 64), '='.toUInt8, '='.toUInt8] := by
  simp [encodeChunk, utf8, utf8_base64Char, joinBytes, Nat.shiftRight_eq_div_pow]
  rfl

theorem toNat_shiftRight (n i : Nat) : (UInt8.ofNat (n >>> i)).toNat = n / 2 ^ i % 256 := by
  rw [UInt8.toNat_ofNat', Nat.shiftRight_eq_div_pow]

section Bases

variable {n : Nat}

theorem joinBytes_three (h : n < 16777216) :
    joinBytes (UInt8.ofNat (n >>> 16)).toNat (UInt8.ofNat (n >>> 8)).toNat
      (UInt8.ofNat n).toNat = n := by
  rw [toNat_shiftRight, toNat_shiftRight, UInt8.toNat_ofNat',
    joinBytes_eq (by omega) (by omega)]
  omega

theorem joinBytes_two (h : n < 16777216) :
    joinBytes (UInt8.ofNat (n >>> 16)).toNat (UInt8.ofNat (n >>> 8)).toNat 0 =
      n / 256 * 256 := by
  rw [toNat_shiftRight, toNat_shiftRight, joinBytes_eq (by omega) (by omega)]
  omega

theorem joinBytes_one (h : n < 16777216) :
    joinBytes (UInt8.ofNat (n >>> 16)).toNat 0 0 = n / 65536 * 65536 := by
  rw [toNat_shiftRight, joinBytes_eq (by omega) (by omega)]
  omega

theorem joinSextets_four (h : n < 16777216) :
    joinSextets (n / 262144 % 64) (n / 4096 % 64) (n / 64 % 64) (n % 64) = n := by
  rw [joinSextets_eq (by omega) (by omega) (by omega)]
  omega

theorem sextets_of_eq {s0 s1 s2 s3 : Nat} (h0 : s0 < 64) (h1 : s1 < 64) (h2 : s2 < 64)
    (h3 : s3 < 64) (hn : n = s0 * 262144 + s1 * 4096 + s2 * 64 + s3) :
    n / 262144 % 64 = s0 ∧ n / 4096 % 64 = s1 ∧ n / 64 % 64 = s2 ∧ n % 64 = s3 := by
  refine ⟨?_, ?_, ?_, ?_⟩ <;> omega

theorem bytes_of_eq {b0 b1 b2 : UInt8}
    (hn : n = b0.toNat * 65536 + b1.toNat * 256 + b2.toNat) :
    UInt8.ofNat (n >>> 16) = b0 ∧ UInt8.ofNat (n >>> 8) = b1 ∧ UInt8.ofNat n = b2 := by
  have h0 := b0.toNat_lt
  have h1 := b1.toNat_lt
  have h2 := b2.toNat_lt
  refine ⟨UInt8.toNat_inj.mp ?_, UInt8.toNat_inj.mp ?_, UInt8.toNat_inj.mp ?_⟩
  · rw [toNat_shiftRight]
    omega
  · rw [toNat_shiftRight]
    omega
  · rw [UInt8.toNat_ofNat']
    omega

end Bases

theorem decodeChunk_encodeChunk {chunk : List UInt8} (hne : chunk ≠ [])
    (hlength : chunk.length ≤ 3) : decodeChunk (utf8 (encodeChunk chunk)) = some chunk := by
  have hmod (n : Nat) : n % 64 < 64 := Nat.mod_lt _ (by decide)
  rcases chunk with _ | ⟨b0, _ | ⟨b1, _ | ⟨b2, _ | ⟨b3, rest⟩⟩⟩⟩
  · exact absurd rfl hne
  · have h0 := b0.toNat_lt
    have hn : joinBytes b0.toNat 0 0 = b0.toNat * 65536 + 0 * 256 + 0 :=
      joinBytes_eq (by omega) (by omega)
    have hjoin := joinSextets_four (n := joinBytes b0.toNat 0 0) (by omega)
    have hlow : joinBytes b0.toNat 0 0 / 64 % 64 = 0 ∧ joinBytes b0.toNat 0 0 % 64 = 0 := by
      omega
    obtain ⟨e0, -⟩ := @bytes_of_eq _ b0 0 0 hn
    rw [hlow.1, hlow.2] at hjoin
    rw [utf8_encodeChunk_two_pads]
    dsimp only
    rw [decodeChunk_two_pads (hmod _) (hmod _), hjoin, e0]
  · have h0 := b0.toNat_lt
    have h1 := b1.toNat_lt
    have hn : joinBytes b0.toNat b1.toNat 0 = b0.toNat * 65536 + b1.toNat * 256 + 0 :=
      joinBytes_eq (by omega) (by omega)
    have hjoin := joinSextets_four (n := joinBytes b0.toNat b1.toNat 0) (by omega)
    have hlow : joinBytes b0.toNat b1.toNat 0 % 64 = 0 := by omega
    obtain ⟨e0, e1, -⟩ := @bytes_of_eq _ b0 b1 0 hn
    rw [hlow] at hjoin
    rw [utf8_encodeChunk_one_pad]
    dsimp only
    rw [decodeChunk_one_pad (hmod _) (hmod _) (hmod _), hjoin, e0, e1]
  · have h0 := b0.toNat_lt
    have h1 := b1.toNat_lt
    have h2 := b2.toNat_lt
    have hn := @joinBytes_eq b0.toNat _ _ h1 h2
    have hjoin := joinSextets_four (n := joinBytes b0.toNat b1.toNat b2.toNat) (by omega)
    obtain ⟨e0, e1, e2⟩ := bytes_of_eq hn
    rw [utf8_encodeChunk_full]
    dsimp only
    rw [decodeChunk_full (hmod _) (hmod _) (hmod _) (hmod _), hjoin, e0, e1, e2]
  · simp only [List.length_cons] at hlength
    omega

/-- A data character without the low bits of its sextet. -/
def clearBits (count : Nat) (byte : UInt8) : UInt8 :=
  match base64Alphabet.idxOf? byte with
  | some value => sextetByte (value >>> count <<< count)
  | none => byte

/-- A chunk without the bits that are of no byte: four before two pads, two before one. -/
def clearChunk : List UInt8 → List UInt8
  | [c0, c1, c2, c3] =>
    if c2 = '='.toUInt8 then [c0, clearBits 4 c1, c2, c3]
    else if c3 = '='.toUInt8 then [c0, c1, clearBits 2 c2, c3]
    else [c0, c1, c2, c3]
  | chunk => chunk

/-- A text without the unused bits of its last chunk. -/
def clearUnused (bytes : List UInt8) : List UInt8 :=
  bytes.take (bytes.length - 4) ++ clearChunk (bytes.drop (bytes.length - 4))

theorem clearBits_sextetByte {count value : Nat} (h : value < 64) :
    clearBits count (sextetByte value) = sextetByte (value / 2 ^ count * 2 ^ count) := by
  rw [clearBits, (sextetByte_spec value h).1, ← Nat.shiftRight_eq_div_pow, ← Nat.shiftLeft_eq]

theorem Quad.encode {chunk bytes : List UInt8} (h : Quad chunk bytes) :
    utf8 (encodeChunk bytes) = clearChunk chunk := by
  cases h with
  | @full s0 s1 s2 s3 h0 h1 h2 h3 =>
    have hc2 := (sextetByte_spec s2 h2).2.1
    have hc3 := (sextetByte_spec s3 h3).2.1
    have hn := @joinSextets_eq s0 _ _ _ h1 h2 h3
    obtain ⟨e0, e1, e2, e3⟩ := sextets_of_eq h0 h1 h2 h3 hn
    rw [clearChunk, if_neg hc2, if_neg hc3, utf8_encodeChunk_full,
      joinBytes_three (by omega)]
    dsimp only
    rw [e0, e1, e2, e3]
  | @onePad s0 s1 s2 h0 h1 h2 =>
    have hc2 := (sextetByte_spec s2 h2).2.1
    have hn := @joinSextets_eq s0 _ _ 0 h1 h2 (by decide)
    have hcut : joinSextets s0 s1 s2 0 / 256 * 256 =
        s0 * 262144 + s1 * 4096 + s2 / 2 ^ 2 * 2 ^ 2 * 64 + 0 := by omega
    obtain ⟨e0, e1, e2, -⟩ := sextets_of_eq h0 h1 (by omega) (by omega) hcut
    rw [clearChunk, if_neg hc2, if_pos rfl, clearBits_sextetByte h2,
      utf8_encodeChunk_one_pad, joinBytes_two (by omega)]
    dsimp only
    rw [e0, e1, e2]
  | @twoPads s0 s1 h0 h1 =>
    have hn := @joinSextets_eq s0 _ 0 0 h1 (by decide) (by decide)
    have hcut : joinSextets s0 s1 0 0 / 65536 * 65536 =
        s0 * 262144 + s1 / 2 ^ 4 * 2 ^ 4 * 4096 + 0 * 64 + 0 := by omega
    obtain ⟨e0, e1, -⟩ := sextets_of_eq h0 (by omega) (by omega) (by omega) hcut
    rw [clearChunk, if_pos rfl, clearBits_sextetByte h1, utf8_encodeChunk_two_pads,
      joinBytes_one (by omega)]
    dsimp only
    rw [e0, e1]

theorem length_utf8_encodeChunk {chunk : List UInt8} (hne : chunk ≠ [])
    (hlength : chunk.length ≤ 3) : (utf8 (encodeChunk chunk)).length = 4 := by
  rcases chunk with _ | ⟨b0, _ | ⟨b1, _ | ⟨b2, _ | ⟨b3, rest⟩⟩⟩⟩
  · exact absurd rfl hne
  · rw [utf8_encodeChunk_two_pads]
    rfl
  · rw [utf8_encodeChunk_one_pad]
    rfl
  · rw [utf8_encodeChunk_full]
    rfl
  · simp only [List.length_cons] at hlength
    omega

theorem decodeChunks_append {chunk : List UInt8} (h : chunk.length = 4) (rest : List UInt8) :
    decodeChunks (chunk ++ rest) =
      (decodeChunk chunk).bind fun bytes => (decodeChunks rest).map (bytes ++ ·) := by
  match chunk, h with
  | [c0, c1, c2, c3], _ => rfl

theorem encodeChunks_append {chunk : List UInt8} (h : chunk.length = 3) (rest : List UInt8) :
    encodeChunks (chunk ++ rest) = encodeChunk chunk ++ encodeChunks rest := by
  match chunk, h with
  | [b0, b1, b2], _ => rfl

theorem encodeChunks_short {chunk : List UInt8} (hne : chunk ≠ [])
    (hlength : chunk.length ≤ 3) : encodeChunks chunk = encodeChunk chunk := by
  rcases chunk with _ | ⟨b0, _ | ⟨b1, _ | ⟨b2, _ | ⟨b3, rest⟩⟩⟩⟩
  · exact absurd rfl hne
  · rfl
  · rfl
  · exact List.append_nil _
  · simp only [List.length_cons] at hlength
    omega

theorem decodeChunks_encodeChunks (data : List UInt8) :
    decodeChunks (utf8 (encodeChunks data)) = some data ∧
      (utf8 (encodeChunks data)).length % 4 = 0 := by
  fun_induction encodeChunks data with
  | case1 => exact ⟨rfl, rfl⟩
  | case2 b0 b1 b2 rest ih =>
    have hlength := length_utf8_encodeChunk (List.cons_ne_nil b0 [b1, b2]) (Nat.le_refl 3)
    rw [utf8_append, decodeChunks_append hlength,
      decodeChunk_encodeChunk (List.cons_ne_nil b0 [b1, b2]) (Nat.le_refl 3), ih.1, List.length_append, hlength]
    exact ⟨rfl, by omega⟩
  | case3 chunk hne hshort =>
    have hle : chunk.length ≤ 3 := by
      rcases chunk with _ | ⟨b0, _ | ⟨b1, _ | ⟨b2, rest⟩⟩⟩
      · exact Nat.zero_le _
      · exact Nat.le_of_ble_eq_true rfl
      · exact Nat.le_of_ble_eq_true rfl
      · exact absurd rfl (hshort b0 b1 b2 rest)
    have hlength := length_utf8_encodeChunk hne hle
    have happend := decodeChunks_append hlength []
    rw [List.append_nil, decodeChunk_encodeChunk hne hle] at happend
    rw [happend, hlength]
    exact ⟨congrArg some (List.append_nil chunk), rfl⟩

theorem Quad.length {chunk bytes : List UInt8} (h : Quad chunk bytes) :
    bytes ≠ [] ∧ bytes.length ≤ 3 ∧ ('='.toUInt8 ∉ chunk → bytes.length = 3) := by
  cases h with
  | full => exact ⟨List.cons_ne_nil _ _, Nat.le_refl 3, fun _ => rfl⟩
  | onePad =>
    exact ⟨List.cons_ne_nil _ _, Nat.le_succ 2, fun hpad => absurd (by simp) hpad⟩
  | twoPads =>
    exact ⟨List.cons_ne_nil _ _, Nat.le_add_left 1 2, fun hpad => absurd (by simp) hpad⟩

theorem clearUnused_append (chunk : List UInt8) {rest : List UInt8} (h : 4 ≤ rest.length) :
    clearUnused (chunk ++ rest) = chunk ++ clearUnused rest := by
  have hlength : (chunk ++ rest).length - 4 = chunk.length + (rest.length - 4) := by
    rw [List.length_append]
    omega
  rw [clearUnused, clearUnused, hlength, List.take_length_add_append,
    List.drop_length_add_append, List.append_assoc]

/-- A text padded at most at its end is encoded back, but for its unused bits. -/
theorem encodeChunks_of_decodeChunks {bytes data : List UInt8} (hne : bytes ≠ [])
    (hlength : bytes.length % 4 = 0)
    (hpad : '='.toUInt8 ∉ bytes.take (bytes.length - 4))
    (h : decodeChunks bytes = some data) :
    data ≠ [] ∧ utf8 (encodeChunks data) = clearUnused bytes := by
  fun_induction decodeChunks bytes generalizing data with
  | case1 c0 c1 c2 c3 rest ih =>
    obtain ⟨front, hfront, hrest⟩ := Option.bind_eq_some_iff.mp h
    obtain ⟨back, hback, rfl⟩ := Option.map_eq_some_iff.mp hrest
    have hquad := quad_of_decodeChunk hfront
    obtain ⟨hnonempty, hle, hfull⟩ := hquad.length
    refine ⟨List.append_ne_nil_of_left_ne_nil hnonempty _, ?_⟩
    rcases rest with _ | ⟨c, rest⟩
    · obtain rfl : [] = back := Option.some.inj hback
      rw [List.append_nil, encodeChunks_short hnonempty hle, hquad.encode]
      rfl
    · have hfour : 4 ≤ (c :: rest).length := by
        simp only [List.length_cons] at hlength ⊢
        omega
      have hsplit : [c0, c1, c2, c3] ++ (c :: rest) = c0 :: c1 :: c2 :: c3 :: c :: rest := rfl
      have hcount : (c0 :: c1 :: c2 :: c3 :: c :: rest).length - 4 =
          [c0, c1, c2, c3].length + ((c :: rest).length - 4) := by
        simp only [List.length_cons, List.length_nil] at hfour ⊢
        omega
      rw [hcount, ← hsplit, List.take_length_add_append, List.mem_append, not_or] at hpad
      have hmore := ih (List.cons_ne_nil _ _)
        (by simp only [List.length_cons] at hlength ⊢; omega) hpad.2 hback
      rw [encodeChunks_append (hfull hpad.1), utf8_append, hquad.encode, hmore.2, ← hsplit,
        clearUnused_append _ hfour]
      congr 1
      have hc2 : c2 ≠ '='.toUInt8 := fun heq => hpad.1 (by simp [heq])
      have hc3 : c3 ≠ '='.toUInt8 := fun heq => hpad.1 (by simp [heq])
      rw [clearChunk, if_neg hc2, if_neg hc3]
  | case2 bytes hshort =>
    exfalso
    rcases bytes with _ | ⟨c0, _ | ⟨c1, _ | ⟨c2, _ | ⟨c3, rest⟩⟩⟩⟩
    · exact hne rfl
    · cases hlength
    · cases hlength
    · cases hlength
    · exact hshort c0 c1 c2 c3 rest rfl

theorem toUTF8_base64Encode (data : List UInt8) :
    (base64Encode data).toUTF8.data.toList = utf8 (encodeChunks data) := by
  rw [toUTF8_toList, base64Encode, String.toList_ofList]

theorem base64Decode_eq_some {text : String} {data : List UInt8} :
    base64Decode text = some data ↔
      text.toUTF8.data.toList ≠ [] ∧ text.toUTF8.data.toList.length % 4 = 0 ∧
        decodeChunks text.toUTF8.data.toList = some data := by
  have hcheck : (text.toUTF8.data.toList.isEmpty ||
      decide (text.toUTF8.data.toList.length % 4 ≠ 0)) = true ↔
        ¬(text.toUTF8.data.toList ≠ [] ∧ text.toUTF8.data.toList.length % 4 = 0) := by
    rw [Bool.or_eq_true, List.isEmpty_iff, decide_eq_true_iff, not_and_or, not_not]
  rw [base64Decode, ← and_assoc]
  split
  · next hbad =>
      have hnot := hcheck.mp hbad
      constructor
      · intro h
        cases h
      · intro h
        exact absurd h.1 hnot
  · next hgood =>
      have hboth := not_not.mp (mt hcheck.mpr hgood)
      exact ⟨fun h => ⟨hboth, h⟩, fun h => h.2⟩

/-- A text with a byte decodes from its encoding, and no empty text does. A text padded
nowhere before its last four characters is the encoding of what it decodes to, but for the
bits of its last data character that no byte has. -/
theorem base64_codec :
    base64Decode (base64Encode []) = none ∧
      (∀ data, data ≠ [] → base64Decode (base64Encode data) = some data) ∧
      ∀ text data,
        '='.toUInt8 ∉ text.toUTF8.data.toList.take (text.toUTF8.data.toList.length - 4) →
          base64Decode text = some data →
            data ≠ [] ∧
              (base64Encode data).toUTF8.data.toList = clearUnused text.toUTF8.data.toList ∧
              (text = base64Encode data ↔
                clearUnused text.toUTF8.data.toList = text.toUTF8.data.toList) := by
  refine ⟨rfl, fun data hne => ?_, fun text data hpad h => ?_⟩
  · obtain ⟨hdecode, hlength⟩ := decodeChunks_encodeChunks data
    refine base64Decode_eq_some.mpr ?_
    rw [toUTF8_base64Encode]
    refine ⟨fun hnil => ?_, hlength, hdecode⟩
    rw [hnil] at hdecode
    exact hne (Option.some.inj hdecode).symm
  · obtain ⟨hne, hlength, hdecode⟩ := base64Decode_eq_some.mp h
    obtain ⟨hnonempty, hencode⟩ := encodeChunks_of_decodeChunks hne hlength hpad hdecode
    rw [← toUTF8_base64Encode] at hencode
    refine ⟨hnonempty, hencode, ?_⟩
    rw [← hencode]
    exact ⟨fun heq => heq ▸ rfl, fun hbytes => (toUTF8_data_inj hbytes).symm⟩

/-- The empty text has no bytes to come back to, and `QR==` reads as the text of `QQ==`. -/
theorem base64_codec_counterexample :
    ¬((∀ data, base64Decode (base64Encode data) = some data) ∧
      ∀ text data, base64Decode text = some data → text = base64Encode data) ∧
    base64Decode (base64Encode []) ≠ some [] ∧
    base64Decode "QR==" = some [65] ∧ base64Encode [65] = "QQ==" := by
  have hempty : base64Decode (base64Encode []) ≠ some [] := by decide +kernel
  exact ⟨fun h => hempty (h.1 []), hempty, by decide +kernel, by decide +kernel⟩

end HerdrWebui.Transcript
