import HerdrWebui.Data.Text

/-!
The bytes of a text in UTF-8. What a text has of ASCII is found in the bytes just where
the text has it.

Nothing here is about a particular program.
-/

namespace HerdrWebui

def utf8 (chars : List Char) : List UInt8 := chars.flatMap String.utf8EncodeChar

theorem toUTF8_toList (text : String) : text.toUTF8.data.toList = utf8 text.toList := by
  have hbytes : text.toUTF8 = text.toList.utf8Encode := by
    rw [← String.toByteArray_ofList, String.ofList_toList]
    rfl
  rw [hbytes]
  simp [utf8, List.utf8Encode]

theorem toUTF8_data_inj {text text' : String}
    (h : text.toUTF8.data.toList = text'.toUTF8.data.toList) : text = text' :=
  String.toByteArray_inj.mp (ByteArray.ext (Array.toList_inj.mp h))

theorem utf8_append (chars chars' : List Char) :
    utf8 (chars ++ chars') = utf8 chars ++ utf8 chars' := List.flatMap_append

theorem utf8_cons (c : Char) (chars : List Char) :
    utf8 (c :: chars) = String.utf8EncodeChar c ++ utf8 chars := rfl

theorem utf8Size_of_low {c : Char} {byte : UInt8} (h : byte ∈ String.utf8EncodeChar c)
    (hlow : byte < 0x80) : c.utf8Size = 1 := by
  have hbound : byte.toNat < 128 := UInt8.lt_iff_toNat_lt.mp hlow
  rw [Char.utf8Size_eq_one_iff]
  apply UInt32.le_iff_toNat_le.mpr
  by_contra hbig
  have hvalue : ¬c.val.toNat ≤ 0x7f := hbig
  unfold String.utf8EncodeChar at h
  rw [if_neg hvalue] at h
  split at h
  · simp only [List.mem_cons, List.not_mem_nil, or_false] at h
    rcases h with rfl | rfl <;> rw [UInt8.toNat_ofNat'] at hbound <;> omega
  · split at h
    · simp only [List.mem_cons, List.not_mem_nil, or_false] at h
      rcases h with rfl | rfl | rfl <;> rw [UInt8.toNat_ofNat'] at hbound <;> omega
    · simp only [List.mem_cons, List.not_mem_nil, or_false] at h
      rcases h with rfl | rfl | rfl | rfl <;> rw [UInt8.toNat_ofNat'] at hbound <;> omega

theorem utf8EncodeChar_ascii {c : Char} (h : c.utf8Size = 1) :
    String.utf8EncodeChar c = [c.toUInt8] ∧ c.toUInt8 < 0x80 := by
  have hvalue : c.val.toNat ≤ 0x7f :=
    UInt32.le_iff_toNat_le.mp (Char.utf8Size_eq_one_iff.mp h)
  refine ⟨String.utf8EncodeChar_eq_singleton h, UInt8.lt_iff_toNat_lt.mpr ?_⟩
  have hbyte : c.toUInt8.toNat = c.val.toNat % 256 := rfl
  have hlimit : (0x80 : UInt8).toNat = 128 := rfl
  omega

theorem toUInt8_inj {c c' : Char} (h : c.utf8Size = 1) (h' : c'.utf8Size = 1)
    (hbyte : c.toUInt8 = c'.toUInt8) : c = c' := by
  have hvalue : c.val.toNat ≤ 0x7f :=
    UInt32.le_iff_toNat_le.mp (Char.utf8Size_eq_one_iff.mp h)
  have hvalue' : c'.val.toNat ≤ 0x7f :=
    UInt32.le_iff_toNat_le.mp (Char.utf8Size_eq_one_iff.mp h')
  have hnat : c.val.toNat % 256 = c'.val.toNat % 256 := congrArg UInt8.toNat hbyte
  apply Char.ext
  apply UInt32.toNat_inj.mp
  omega

section Marker

variable {marker : List Char}

/-- A marker is at the start of the bytes just where it is at the start of the text. -/
theorem prefix_utf8_iff (h : ∀ c ∈ marker, c.utf8Size = 1) (chars : List Char) :
    utf8 marker <+: utf8 chars ↔ marker <+: chars := by
  induction marker generalizing chars with
  | nil => simp [utf8]
  | cons m marker ih =>
    rw [List.forall_mem_cons] at h
    obtain ⟨hbyte, hlow⟩ := utf8EncodeChar_ascii h.1
    cases chars with
    | nil => simp [utf8, hbyte]
    | cons c chars =>
      rw [utf8_cons, utf8_cons, hbyte, List.singleton_append, List.cons_prefix_cons]
      by_cases hc : c.utf8Size = 1
      · rw [(utf8EncodeChar_ascii hc).1, List.singleton_append, List.cons_prefix_cons,
          ih h.2]
        exact and_congr_left fun _ => ⟨toUInt8_inj h.1 hc, congrArg _⟩
      · have hne : m ≠ c := fun heq => hc (heq ▸ h.1)
        cases hbytes : String.utf8EncodeChar c with
        | nil =>
          have hlength := String.length_utf8EncodeChar c
          rw [hbytes] at hlength
          exact absurd hlength.symm (Char.utf8Size_pos c).ne'
        | cons byte bytes =>
          rw [List.cons_append, List.cons_prefix_cons]
          constructor
          · rintro ⟨rfl, -⟩
            exact absurd (utf8Size_of_low (hbytes ▸ List.mem_cons_self) hlow) hc
          · exact fun heq => absurd heq.1 hne

theorem infix_append_iff {byte : UInt8} {bytes rest high : List UInt8} (hlow : byte < 0x80)
    (hhigh : ∀ b ∈ high, ¬b < 0x80) :
    byte :: bytes <:+: high ++ rest ↔ byte :: bytes <:+: rest := by
  induction high with
  | nil => rfl
  | cons b high ih =>
    rw [List.forall_mem_cons] at hhigh
    rw [List.cons_append, List.infix_cons_iff, List.cons_prefix_cons, ih hhigh.2]
    have hne : byte ≠ b := fun heq => hhigh.1 (heq ▸ hlow)
    simp [hne]

theorem infix_utf8_iff (h : ∀ c ∈ marker, c.utf8Size = 1) (hne : marker ≠ [])
    (chars : List Char) : utf8 marker <:+: utf8 chars ↔ marker <:+: chars := by
  obtain ⟨m, marker, rfl⟩ := List.exists_cons_of_ne_nil hne
  obtain ⟨hbyte, hlow⟩ := utf8EncodeChar_ascii (h m List.mem_cons_self)
  induction chars with
  | nil => simp [utf8, hbyte]
  | cons c chars ih =>
    rw [List.infix_cons_iff, ← ih, ← prefix_utf8_iff h (c :: chars)]
    by_cases hc : c.utf8Size = 1
    · rw [utf8_cons c, (utf8EncodeChar_ascii hc).1, List.singleton_append,
        List.infix_cons_iff]
    · have hhigh : ∀ b ∈ String.utf8EncodeChar c, ¬b < 0x80 :=
        fun b hb hlow => hc (utf8Size_of_low hb hlow)
      have hstart : ¬utf8 (m :: marker) <+: utf8 (c :: chars) := by
        rw [prefix_utf8_iff h, List.cons_prefix_cons]
        rintro ⟨rfl, -⟩
        exact hc (h m List.mem_cons_self)
      rw [or_iff_right hstart, utf8_cons c, utf8_cons m, hbyte, List.singleton_append,
        infix_append_iff hlow hhigh]

end Marker

end HerdrWebui
