import Mathlib.Data.String.Basic
import Mathlib.Tactic

/-!
Decimal numbers of a fixed width. Their texts are in the order of the numbers, and texts
made of parts of fixed widths are in the order of the parts.
-/

namespace HerdrWebui

/-- The digits of a number, with zeros in front of them up to a width. -/
def decimal (width n : Nat) : List Char := (Nat.toDigits 10 n).leftpad width '0'

theorem decimal_succ {width : Nat} (hwidth : 0 < width) (n : Nat) :
    decimal (width + 1) n = decimal width (n / 10) ++ [Nat.digitChar (n % 10)] := by
  rw [decimal, decimal, Nat.toDigits_eq_if (by decide)]
  split
  · next hsmall =>
      have hzero : n / 10 = 0 := by omega
      have hsame : n % 10 = n := by omega
      obtain ⟨width, rfl⟩ := Nat.exists_eq_succ_of_ne_zero hwidth.ne'
      rw [hzero, hsame, Nat.toDigits_zero]
      simp [List.leftpad, List.replicate_succ']
  · simp [List.leftpad]

theorem decimal_one {n : Nat} (h : n < 10) : decimal 1 n = [Nat.digitChar n] := by
  rw [decimal, Nat.toDigits_of_lt_base h]
  rfl

theorem length_decimal {width n : Nat} (hwidth : 0 < width) (h : n < 10 ^ width) :
    (decimal width n).length = width := by
  have hlength := (Nat.length_toDigits_le_iff (by decide) hwidth).mpr h
  rw [decimal, List.length_leftpad]
  omega

theorem mem_decimal {width n : Nat} {c : Char} (hwidth : 0 < width) (h : n < 10 ^ width)
    (hc : c ∈ decimal width n) : ∃ digit < 10, c = Nat.digitChar digit := by
  induction width, hwidth using Nat.le_induction generalizing n with
  | base =>
    rw [pow_one] at h
    rw [decimal_one h, List.mem_singleton] at hc
    exact ⟨n, h, hc⟩
  | succ width hwidth ih =>
    have hrest : n / 10 < 10 ^ width := by
      rw [pow_succ] at h
      omega
    rw [decimal_succ hwidth, List.mem_append, List.mem_singleton] at hc
    rcases hc with hc | hc
    · exact ih hrest hc
    · exact ⟨n % 10, Nat.mod_lt n (by decide), hc⟩

theorem digitChar_lt_iff {a b : Nat} (ha : a < 10) (hb : b < 10) :
    Nat.digitChar a < Nat.digitChar b ↔ a < b := by
  have horder : Nat.digitChar a < Nat.digitChar b ↔
      (Nat.digitChar a).toNat < (Nat.digitChar b).toNat := Iff.rfl
  rw [horder, Nat.toNat_digitChar_of_lt_ten ha, Nat.toNat_digitChar_of_lt_ten hb]
  omega

section Order

variable {α : Type} [LinearOrder α] {l l' r r' : List α}

theorem append_lt_append_iff (h : l.length = l'.length) :
    l ++ r < l' ++ r' ↔ l < l' ∨ l = l' ∧ r < r' := by
  induction l generalizing l' with
  | nil =>
    obtain rfl : l' = [] := List.length_eq_zero_iff.mp h.symm
    simp
  | cons a l ih =>
    cases l' with
    | nil => cases h
    | cons b l' =>
      rw [List.length_cons, List.length_cons, Nat.add_right_cancel_iff] at h
      rw [List.cons_append, List.cons_append, List.cons_lt_cons_iff, List.cons_lt_cons_iff,
        ih h, List.cons.injEq]
      tauto

theorem cons_lt_cons_self_iff (a : α) : a :: r < a :: r' ↔ r < r' := by
  rw [List.cons_lt_cons_iff]
  simp

end Order

theorem decimal_lt_iff {width a b : Nat} (hwidth : 0 < width) (ha : a < 10 ^ width)
    (hb : b < 10 ^ width) : decimal width a < decimal width b ↔ a < b := by
  induction width, hwidth using Nat.le_induction generalizing a b with
  | base =>
    rw [pow_one] at ha hb
    rw [decimal_one ha, decimal_one hb, List.cons_lt_cons_iff, digitChar_lt_iff ha hb]
    simp
  | succ width hwidth ih =>
    have ha' : a / 10 < 10 ^ width := by
      rw [pow_succ] at ha
      omega
    have hb' : b / 10 < 10 ^ width := by
      rw [pow_succ] at hb
      omega
    have hlength : (decimal width (a / 10)).length = (decimal width (b / 10)).length := by
      rw [length_decimal hwidth ha', length_decimal hwidth hb']
    have hsame : decimal width (a / 10) = decimal width (b / 10) ↔ a / 10 = b / 10 := by
      constructor
      · intro heq
        have hle := mt (ih ha' hb').mpr (not_lt_of_ge heq.ge)
        have hge := mt (ih hb' ha').mpr (not_lt_of_ge heq.le)
        omega
      · exact fun heq => by rw [heq]
    have hlast : [Nat.digitChar (a % 10)] < [Nat.digitChar (b % 10)] ↔ a % 10 < b % 10 := by
      rw [List.cons_lt_cons_iff, digitChar_lt_iff (by omega) (by omega)]
      simp
    rw [decimal_succ hwidth, decimal_succ hwidth, append_lt_append_iff hlength, ih ha' hb',
      hsame, hlast]
    omega

theorem decimal_inj {width a b : Nat} (hwidth : 0 < width) (ha : a < 10 ^ width)
    (hb : b < 10 ^ width) (h : decimal width a = decimal width b) : a = b := by
  have hle := mt (decimal_lt_iff hwidth ha hb).mpr (not_lt_of_ge h.ge)
  have hge := mt (decimal_lt_iff hwidth hb ha).mpr (not_lt_of_ge h.le)
  omega

theorem decimal_append_lt_iff {width a b : Nat} {r r' : List Char} (hwidth : 0 < width)
    (ha : a < 10 ^ width) (hb : b < 10 ^ width) :
    decimal width a ++ r < decimal width b ++ r' ↔ a < b ∨ a = b ∧ r < r' := by
  have hlength : (decimal width a).length = (decimal width b).length := by
    rw [length_decimal hwidth ha, length_decimal hwidth hb]
  have hsame : decimal width a = decimal width b ↔ a = b :=
    ⟨decimal_inj hwidth ha hb, congrArg _⟩
  rw [append_lt_append_iff hlength, decimal_lt_iff hwidth ha hb, hsame]

end HerdrWebui
