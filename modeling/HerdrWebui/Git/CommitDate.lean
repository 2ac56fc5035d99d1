import HerdrWebui.Data.Decimal
import HerdrWebui.Data.Text

/-!
The dates of commits as git prints them, and what the server reads from one: the seconds
from the start of 1970.
-/

namespace HerdrWebui.Git

def isLeapYear (year : Int) : Bool :=
  (year.tmod 4 == 0 && year.tmod 100 != 0) || year.tmod 400 == 0

def daysInMonth (year : Int) (month : Nat) : Option Nat :=
  match month with
  | 1 | 3 | 5 | 7 | 8 | 10 | 12 => some 31
  | 4 | 6 | 9 | 11 => some 30
  | 2 => some (if isLeapYear year then 29 else 28)
  | _ => none

def daysFromCivil (year : Int) (month day : Nat) : Option Int :=
  (daysInMonth year month).bind fun days =>
    if day = 0 ∨ day > days then none
    else
      let year := year - if month ≤ 2 then 1 else 0
      let era := (if year ≥ 0 then year else year - 399).tdiv 400
      let yoe := year - era * 400
      let doy := (153 * ((month : Int) + if month > 2 then -3 else 9) + 2).tdiv 5 + day - 1
      let doe := yoe * 365 + yoe.tdiv 4 - yoe.tdiv 100 + doy
      some (era * 146097 + doe - 719468)

def isAsciiDigit (byte : UInt8) : Bool := '0'.toUInt8 ≤ byte && byte ≤ '9'.toUInt8

def parseDigits (digits : List UInt8) : Option Nat :=
  if digits ≠ [] ∧ digits.all isAsciiDigit then
    some (digits.foldl (fun n byte => 10 * n + (byte.toNat - '0'.toNat)) 0)
  else none

/-- `u32::from_str` of a few bytes. -/
def parseUnsigned (bytes : List UInt8) : Option Nat :=
  if bytes.head? = some '+'.toUInt8 then parseDigits bytes.tail else parseDigits bytes

/-- `i64::from_str` of a few bytes. -/
def parseSigned (bytes : List UInt8) : Option Int :=
  if bytes.head? = some '-'.toUInt8 then (parseDigits bytes.tail).map fun n => -(n : Int)
  else (parseUnsigned bytes).map Int.ofNat

/-- A slice by bytes. One that cuts a character has a byte that is not a digit. -/
def slice (bytes : List UInt8) (start stop : Nat) : Option (List UInt8) :=
  if stop ≤ bytes.length then some ((bytes.take stop).drop start) else none

/-- Where the offset starts, after the fraction of a second. -/
def offsetIndex (bytes : List UInt8) : Option Nat :=
  if bytes[19]? = some '.'.toUInt8 then
    ((bytes.drop 20).findIdx? fun byte => !isAsciiDigit byte).map (20 + ·)
  else some 19

def parseOffset (bytes : List UInt8) (index : Nat) : Option Int :=
  let sign := bytes[index]?
  if sign = some '+'.toUInt8 ∨ sign = some '-'.toUInt8 then do
    if bytes.length < index + 6 ∨ bytes[index + 3]? ≠ some ':'.toUInt8 then none
    else
      let hours ← (slice bytes (index + 1) (index + 3)).bind parseSigned
      let minutes ← (slice bytes (index + 4) (index + 6)).bind parseSigned
      if hours > 23 ∨ minutes > 59 then none
      else
        let offset := hours * 3600 + minutes * 60
        some (if sign = some '+'.toUInt8 then offset else -offset)
  else some 0

def hasDateMarks (bytes : List UInt8) : Bool :=
  bytes.length ≥ 19 && bytes[4]? == some '-'.toUInt8 && bytes[7]? == some '-'.toUInt8 &&
    (bytes[10]? == some 'T'.toUInt8 || bytes[10]? == some ' '.toUInt8) &&
    bytes[13]? == some ':'.toUInt8 && bytes[16]? == some ':'.toUInt8

def parseWorktreeActivityTimestamp (value : String) : Option Int :=
  let bytes := (trim value).toUTF8.data.toList
  if hasDateMarks bytes then do
    let year ← (slice bytes 0 4).bind parseSigned
    let month ← (slice bytes 5 7).bind parseUnsigned
    let day ← (slice bytes 8 10).bind parseUnsigned
    let hour ← (slice bytes 11 13).bind parseSigned
    let minute ← (slice bytes 14 16).bind parseSigned
    let second ← (slice bytes 17 19).bind parseSigned
    if month < 1 ∨ month > 12 ∨ day < 1 ∨ day > 31 ∨ hour > 23 ∨ minute > 59 ∨ second > 60 then
      none
    else
      let days ← daysFromCivil year month day
      let localSeconds := days * 86400 + hour * 3600 + minute * 60 + min second 59
      let offsetSeconds ← (offsetIndex bytes).bind (parseOffset bytes)
      some (localSeconds - offsetSeconds)
  else none

def yearLength (year : Nat) : Nat :=
  if year % 4 = 0 ∧ year % 100 ≠ 0 ∨ year % 400 = 0 then 366 else 365

def monthLength (year month : Nat) : Nat :=
  [31, yearLength year - 337, 31, 30, 31, 30, 31, 31, 30, 31, 30, 31].getD (month - 1) 0

def daysBeforeYear : Nat → Nat
  | 0 => 0
  | year + 1 => daysBeforeYear year + yearLength year

def daysBeforeMonth (year month : Nat) : Nat :=
  ∑ k ∈ Finset.range (month - 1), monthLength year (k + 1)

inductive UtcOffset where
  | utc
  | east (hours : Fin 24) (minutes : Fin 60)
  | west (hours : Fin 24) (minutes : Fin 60)

/-- A date in strict ISO 8601, as git prints that of a commit. -/
structure CommitDate where
  year : Nat
  month : Nat
  day : Nat
  hour : Fin 24
  minute : Fin 60
  second : Fin 60
  offset : UtcOffset
  year_lt : year < 10000
  month_mem : 1 ≤ month ∧ month ≤ 12
  day_mem : 1 ≤ day ∧ day ≤ monthLength year month

def UtcOffset.chars : UtcOffset → List Char
  | .utc => ['Z']
  | .east hours minutes => '+' :: (decimal 2 hours ++ ':' :: decimal 2 minutes)
  | .west hours minutes => '-' :: (decimal 2 hours ++ ':' :: decimal 2 minutes)

def UtcOffset.seconds : UtcOffset → Int
  | .utc => 0
  | .east hours minutes => hours * 3600 + minutes * 60
  | .west hours minutes => -(hours * 3600 + minutes * 60)

namespace CommitDate

variable (d : CommitDate)

def chars : List Char :=
  decimal 4 d.year ++ '-' :: (decimal 2 d.month ++ '-' :: (decimal 2 d.day ++
    'T' :: (decimal 2 d.hour ++ ':' :: (decimal 2 d.minute ++ ':' ::
      (decimal 2 d.second ++ d.offset.chars)))))

def text : String := String.ofList d.chars

def days : Int :=
  daysBeforeYear d.year + daysBeforeMonth d.year d.month + (d.day - 1) - daysBeforeYear 1970

def localSeconds : Int := d.days * 86400 + d.hour * 3600 + d.minute * 60 + d.second

/-- The seconds from the start of 1970 in UTC. -/
def instant : Int := d.localSeconds - d.offset.seconds

end CommitDate

theorem daysBeforeYear_eq (year : Nat) :
    daysBeforeYear year + (year + 99) / 100 =
      365 * year + (year + 3) / 4 + (year + 399) / 400 := by
  induction year with
  | zero => rfl
  | succ year ih =>
    rw [daysBeforeYear, yearLength]
    split <;> omega

theorem daysBeforeYear_lt {year year' : Nat} (h : year < year') :
    daysBeforeYear year + yearLength year ≤ daysBeforeYear year' := by
  induction year', h using Nat.le_induction with
  | base => exact le_rfl
  | succ year' _ ih =>
    rw [daysBeforeYear]
    omega

theorem daysBeforeMonth_lt {month month' : Nat} (year : Nat) (hmonth : 1 ≤ month)
    (h : month < month') :
    daysBeforeMonth year month + monthLength year month ≤ daysBeforeMonth year month' := by
  have hsucc : daysBeforeMonth year month + monthLength year month =
      ∑ k ∈ Finset.range month, monthLength year (k + 1) := by
    obtain ⟨k, rfl⟩ := Nat.exists_eq_add_of_le' hmonth
    rw [Finset.sum_range_succ]
    rfl
  rw [hsucc, daysBeforeMonth]
  apply Finset.sum_le_sum_of_subset
  exact Finset.range_mono (by omega)

theorem yearLength_mem (year : Nat) : yearLength year = 365 ∨ yearLength year = 366 := by
  unfold yearLength
  split
  · exact .inr rfl
  · exact .inl rfl

theorem daysBeforeMonth_le (year : Nat) {month : Nat} (h : 1 ≤ month ∧ month ≤ 12) :
    daysBeforeMonth year month + monthLength year month ≤ yearLength year := by
  have hlast := yearLength_mem year
  have hyear : daysBeforeMonth year 12 + monthLength year 12 = yearLength year := by
    simp [daysBeforeMonth, monthLength, Finset.sum_range_succ]
    omega
  rcases h.2.lt_or_eq with hlt | rfl
  · have hmonth := daysBeforeMonth_lt year h.1 hlt
    omega
  · exact hyear.le

theorem CommitDate.days_lt_iff (d d' : CommitDate) :
    d.days < d'.days ↔ d.year < d'.year ∨ d.year = d'.year ∧
      (d.month < d'.month ∨ d.month = d'.month ∧ d.day < d'.day) := by
  have before {d d' : CommitDate} (h : d.year < d'.year ∨ d.year = d'.year ∧
      d.month < d'.month) : d.days < d'.days := by
    have hday := d.day_mem
    have hday' := d'.day_mem
    unfold CommitDate.days
    rcases h with hyear | ⟨hyear, hmonth⟩
    · have hyears := daysBeforeYear_lt hyear
      have hmonths := daysBeforeMonth_le d.year d.month_mem
      omega
    · have hmonths := daysBeforeMonth_lt d.year d.month_mem.1 hmonth
      rw [hyear] at hday hmonths ⊢
      omega
  have same (hyear : d.year = d'.year) (hmonth : d.month = d'.month) :
      d.days < d'.days ↔ d.day < d'.day := by
    have hday := d.day_mem
    unfold CommitDate.days
    rw [hyear, hmonth]
    omega
  rcases lt_trichotomy d.year d'.year with hyear | hyear | hyear
  · exact iff_of_true (before (.inl hyear)) (.inl hyear)
  · rcases lt_trichotomy d.month d'.month with hmonth | hmonth | hmonth
    · exact iff_of_true (before (.inr ⟨hyear, hmonth⟩)) (.inr ⟨hyear, .inl hmonth⟩)
    · rw [same hyear hmonth]
      omega
    · have hafter := before (.inr ⟨hyear.symm, hmonth⟩)
      omega
  · have hafter := before (.inl hyear)
    omega

theorem isLeapYear_natCast (year : Nat) :
    isLeapYear year = decide (yearLength year = 366) := by
  have hmod (n : Nat) : (year : Int).tmod n = ((year % n : Nat) : Int) := Int.ofNat_tmod ..
  have h4 := hmod 4
  have h100 := hmod 100
  have h400 := hmod 400
  unfold isLeapYear yearLength
  rw [Nat.cast_ofNat] at h4 h100 h400
  rw [h4, h100, h400]
  grind

theorem daysInMonth_eq (year : Nat) {month : Nat} (h : 1 ≤ month ∧ month ≤ 12) :
    daysInMonth year month = some (monthLength year month) := by
  have hyear := yearLength_mem year
  obtain ⟨hlow, hhigh⟩ := h
  unfold daysInMonth
  rw [isLeapYear_natCast]
  interval_cases month <;> simp [monthLength]
  -- February is what is left.
  split <;> omega

theorem daysBeforeYear_epoch : daysBeforeYear 1970 = 719528 := by
  have hyears := daysBeforeYear_eq 1970
  generalize daysBeforeYear 1970 = days at hyears ⊢
  omega

theorem monthDays_eq (year : Nat) {month : Nat} (h : 1 ≤ month ∧ month ≤ 12) :
    (153 * ((month : Int) + if month > 2 then -3 else 9) + 2).tdiv 5 =
      if month > 2 then (daysBeforeMonth year month : Int) - daysBeforeMonth year 3
      else daysBeforeMonth year month + 306 := by
  obtain ⟨hlow, hhigh⟩ := h
  have hnonneg : (0 : Int) ≤ 153 * ((month : Int) + if month > 2 then -3 else 9) + 2 := by
    split <;> omega
  rw [Int.tdiv_eq_ediv_of_nonneg hnonneg]
  unfold daysBeforeMonth monthLength
  generalize yearLength year - 337 = february
  interval_cases month <;> simp [Finset.sum_range_succ] <;> omega

theorem marchYear_eq (year : Nat) (day : Int) :
    (year : Int).tdiv 400 * 146097 + ((year - (year : Int).tdiv 400 * 400) * 365 +
        (year - (year : Int).tdiv 400 * 400).tdiv 4 -
        (year - (year : Int).tdiv 400 * 400).tdiv 100 + day) =
      365 * year + year / 4 - year / 100 + year / 400 + day := by
  have hera : (year : Int).tdiv 400 = year / 400 := Int.tdiv_eq_ediv_of_nonneg (by omega)
  rw [hera, Int.tdiv_eq_ediv_of_nonneg (by omega), Int.tdiv_eq_ediv_of_nonneg (by omega)]
  omega

theorem daysBeforeMarch_eq (year : Nat) : daysBeforeMonth year 3 + 306 = yearLength year := by
  have hlength := yearLength_mem year
  simp [daysBeforeMonth, monthLength, Finset.sum_range_succ]
  omega

theorem marchStart_eq (year : Nat) :
    (daysBeforeYear year + daysBeforeMonth year 3 : Int) =
      365 * year + year / 4 - year / 100 + year / 400 + 60 := by
  have hnext := daysBeforeYear_eq (year + 1)
  have hmarch := daysBeforeMarch_eq year
  rw [daysBeforeYear] at hnext
  omega

theorem daysFromCivil_eq (d : CommitDate) :
    daysFromCivil d.year d.month d.day = some d.days := by
  have hmember := d.day_mem
  have hday : ¬(d.day = 0 ∨ d.day > monthLength d.year d.month) := by omega
  rw [daysFromCivil, daysInMonth_eq d.year d.month_mem, Option.bind_some, if_neg hday]
  dsimp only
  rw [Option.some_inj, CommitDate.days, daysBeforeYear_epoch, monthDays_eq d.year d.month_mem]
  clear hday hmember
  by_cases hmonth : d.month > 2
  · have hmarch := marchStart_eq d.year
    have hpositive : (d.year : Int) ≥ 0 := by omega
    rw [if_pos hmonth, if_neg (not_le.mpr hmonth), sub_zero, if_pos hpositive, marchYear_eq]
    omega
  · rw [if_neg hmonth, if_pos (not_lt.mp hmonth)]
    cases hyear : d.year with
    | zero =>
      have hquarters : Int.tdiv 399 4 = 99 := by decide
      have hcenturies : Int.tdiv 399 100 = 3 := by decide
      rw [daysBeforeYear]
      norm_num
      omega
    | succ year =>
      have hmarch := marchStart_eq year
      have hspring := daysBeforeMarch_eq year
      have hpositive : (year : Int) ≥ 0 := by omega
      rw [daysBeforeYear, Nat.cast_succ, add_sub_cancel_right, if_pos hpositive, marchYear_eq]
      omega

theorem digitChar_byte {n : Nat} (h : n < 10) :
    isAsciiDigit (Nat.digitChar n).toUInt8 = true ∧
      (Nat.digitChar n).toUInt8.toNat - '0'.toUInt8.toNat = n ∧
      (Nat.digitChar n).utf8Size = 1 ∧ isWhitespace (Nat.digitChar n) = false := by
  interval_cases n <;> decide

theorem parseDigits_decimal {width n : Nat} (hwidth : 0 < width) (h : n < 10 ^ width) :
    parseDigits ((decimal width n).map Char.toUInt8) = some n := by
  have hdigits : ((decimal width n).map Char.toUInt8).all isAsciiDigit ∧
      ((decimal width n).map Char.toUInt8).foldl
        (fun n byte => 10 * n + (byte.toNat - '0'.toUInt8.toNat)) 0 = n := by
    induction width, hwidth using Nat.le_induction generalizing n with
    | base =>
      rw [pow_one] at h
      have hbyte := digitChar_byte h
      rw [decimal_one h]
      simpa using ⟨hbyte.1, hbyte.2.1⟩
    | succ width hwidth ih =>
      have hrest : n / 10 < 10 ^ width := by
        rw [pow_succ] at h
        omega
      have hbyte := digitChar_byte (Nat.mod_lt n (by decide : 0 < 10))
      rw [decimal_succ hwidth, List.map_append, List.all_append, List.foldl_append,
        (ih hrest).1, (ih hrest).2]
      simp only [List.map_singleton, List.all_cons, List.all_nil, List.foldl_cons,
        List.foldl_nil, hbyte.1, hbyte.2.1, Bool.and_self, true_and]
      omega
  have hne : (decimal width n).map Char.toUInt8 ≠ [] := by
    intro hnil
    have hlength := length_decimal hwidth h
    rw [List.map_eq_nil_iff.mp hnil] at hlength
    exact hwidth.ne hlength
  rw [parseDigits, if_pos ⟨hne, hdigits.1⟩]
  exact congrArg some hdigits.2

theorem parseDigits_head {bytes : List UInt8} {n : Nat} (h : parseDigits bytes = some n) :
    bytes.head? ≠ some '+'.toUInt8 ∧ bytes.head? ≠ some '-'.toUInt8 := by
  have hdigits : bytes.all isAsciiDigit := by
    rw [parseDigits, Option.ite_none_right_eq_some] at h
    exact h.1.2
  rw [List.all_eq_true] at hdigits
  constructor
  · intro hsign
    exact absurd (hdigits _ (List.mem_of_mem_head? hsign)) (by decide)
  · intro hsign
    exact absurd (hdigits _ (List.mem_of_mem_head? hsign)) (by decide)

theorem parseUnsigned_digits {bytes : List UInt8} {n : Nat} (h : parseDigits bytes = some n) :
    parseUnsigned bytes = some n := by
  rw [parseUnsigned, if_neg (parseDigits_head h).1, h]

theorem parseSigned_digits {bytes : List UInt8} {n : Nat} (h : parseDigits bytes = some n) :
    parseSigned bytes = some (n : Int) := by
  rw [parseSigned, if_neg (parseDigits_head h).2, parseUnsigned_digits h]
  rfl

theorem slice_append {pre part post : List UInt8} {start stop : Nat}
    (hstart : pre.length = start) (hstop : start + part.length = stop) :
    slice (pre ++ (part ++ post)) start stop = some part := by
  have hlength : stop ≤ (pre ++ (part ++ post)).length := by
    simp
    omega
  subst hstart hstop
  rw [slice, if_pos hlength, ← List.append_assoc, ← List.length_append, List.take_left,
    List.drop_left]

theorem date_slices {year month day hour minute second : List UInt8} {mark : UInt8}
    (hmark : mark = 'T'.toUInt8 ∨ mark = ' '.toUInt8) (rest : List UInt8)
    (hyear : year.length = 4) (hmonth : month.length = 2) (hday : day.length = 2)
    (hhour : hour.length = 2) (hminute : minute.length = 2) (hsecond : second.length = 2) :
    let bytes := year ++ '-'.toUInt8 :: (month ++ '-'.toUInt8 :: (day ++
      mark :: (hour ++ ':'.toUInt8 :: (minute ++ ':'.toUInt8 :: (second ++ rest)))))
    hasDateMarks bytes = true ∧ slice bytes 0 4 = some year ∧ slice bytes 5 7 = some month ∧
      slice bytes 8 10 = some day ∧ slice bytes 11 13 = some hour ∧
      slice bytes 14 16 = some minute ∧ slice bytes 17 19 = some second ∧
      ∃ pre : List UInt8, pre.length = 19 ∧ bytes = pre ++ rest := by
  obtain ⟨y₁, y₂, y₃, y₄, rfl⟩ := List.length_eq_four.mp hyear
  obtain ⟨m₁, m₂, rfl⟩ := List.length_eq_two.mp hmonth
  obtain ⟨d₁, d₂, rfl⟩ := List.length_eq_two.mp hday
  obtain ⟨h₁, h₂, rfl⟩ := List.length_eq_two.mp hhour
  obtain ⟨n₁, n₂, rfl⟩ := List.length_eq_two.mp hminute
  obtain ⟨s₁, s₂, rfl⟩ := List.length_eq_two.mp hsecond
  constructor
  · rcases hmark with rfl | rfl <;> simp [hasDateMarks]
  iterate 6 apply And.intro (by simp [slice])
  exact ⟨[y₁, y₂, y₃, y₄, '-'.toUInt8, m₁, m₂, '-'.toUInt8, d₁, d₂, mark, h₁, h₂,
    ':'.toUInt8, n₁, n₂, ':'.toUInt8, s₁, s₂], rfl, rfl⟩

theorem parseOffset_signed {pre hours minutes : List UInt8} {sign : UInt8} {h m index : Nat}
    (hpre : pre.length = index) (hsign : sign = '+'.toUInt8 ∨ sign = '-'.toUInt8)
    (hhours : parseDigits hours = some h ∧ hours.length = 2 ∧ h < 24)
    (hminutes : parseDigits minutes = some m ∧ minutes.length = 2 ∧ m < 60) :
    parseOffset (pre ++ sign :: (hours ++ ':'.toUInt8 :: minutes)) index =
      some (if sign = '+'.toUInt8 then (h * 3600 + m * 60 : Int) else -(h * 3600 + m * 60)) := by
  obtain ⟨hhours, hlength, hh⟩ := hhours
  obtain ⟨hminutes, hlength', hm⟩ := hminutes
  have hat : (pre ++ sign :: (hours ++ ':'.toUInt8 :: minutes))[index]? = some sign := by
    rw [List.getElem?_append_right hpre.le, hpre, Nat.sub_self]
    rfl
  have hcolon : (pre ++ sign :: (hours ++ ':'.toUInt8 :: minutes))[index + 3]? =
      some ':'.toUInt8 := by
    obtain ⟨a, b, rfl⟩ := List.length_eq_two.mp hlength
    rw [List.getElem?_append_right (by omega), hpre, Nat.add_sub_cancel_left]
    rfl
  have hfirst : slice (pre ++ sign :: (hours ++ ':'.toUInt8 :: minutes)) (index + 1)
      (index + 3) = some hours := by
    have hcut : pre ++ sign :: (hours ++ ':'.toUInt8 :: minutes) =
        (pre ++ [sign]) ++ (hours ++ ':'.toUInt8 :: minutes) := by simp
    rw [hcut]
    exact slice_append (by simp [hpre]) (by rw [hlength])
  have hlast : slice (pre ++ sign :: (hours ++ ':'.toUInt8 :: minutes)) (index + 4)
      (index + 6) = some minutes := by
    have hcut : pre ++ sign :: (hours ++ ':'.toUInt8 :: minutes) =
        (pre ++ sign :: (hours ++ [':'.toUInt8])) ++ (minutes ++ []) := by simp
    rw [hcut]
    exact slice_append (by simp [hpre, hlength]) (by rw [hlength'])
  have hlong : ¬((pre ++ sign :: (hours ++ ':'.toUInt8 :: minutes)).length < index + 6 ∨
      (pre ++ sign :: (hours ++ ':'.toUInt8 :: minutes))[index + 3]? ≠ some ':'.toUInt8) := by
    rw [hcolon]
    simp [hpre, hlength, hlength']
  have hrange : ¬((h : Int) > 23 ∨ (m : Int) > 59) := by omega
  have hmark : some sign = some '+'.toUInt8 ∨ some sign = some '-'.toUInt8 :=
    hsign.imp (congrArg some) (congrArg some)
  rw [parseOffset, hat, if_pos hmark, if_neg hlong, hfirst, hlast, Option.bind_some,
    Option.bind_some, parseSigned_digits hhours, parseSigned_digits hminutes]
  simp only [Option.bind_eq_bind, Option.bind_some, if_neg hrange, Option.some_inj]

theorem length_digits {width n : Nat} (hwidth : 0 < width) (h : n < 10 ^ width) :
    ((decimal width n).map Char.toUInt8).length = width := by
  rw [List.length_map, length_decimal hwidth h]

theorem parseOffset_at (pre : List UInt8) (o : UtcOffset) :
    parseOffset (pre ++ o.chars.map Char.toUInt8) pre.length = some o.seconds := by
  have hparts (hours : Fin 24) (minutes : Fin 60) :
      (parseDigits ((decimal 2 hours).map Char.toUInt8) = some hours.val ∧
        ((decimal 2 hours).map Char.toUInt8).length = 2 ∧ hours.val < 24) ∧
      (parseDigits ((decimal 2 minutes).map Char.toUInt8) = some minutes.val ∧
        ((decimal 2 minutes).map Char.toUInt8).length = 2 ∧ minutes.val < 60) := by
    have hhours : hours.val < 10 ^ 2 := by omega
    have hminutes : minutes.val < 10 ^ 2 := by omega
    exact ⟨⟨parseDigits_decimal two_pos hhours, length_digits two_pos hhours, hours.isLt⟩,
      parseDigits_decimal two_pos hminutes, length_digits two_pos hminutes, minutes.isLt⟩
  cases o with
  | utc =>
    rw [UtcOffset.chars, List.map_cons, parseOffset, List.getElem?_append_right le_rfl,
      Nat.sub_self]
    rfl
  | east hours minutes =>
    rw [UtcOffset.chars, List.map_cons, List.map_append, List.map_cons,
      parseOffset_signed rfl (.inl rfl) (hparts hours minutes).1 (hparts hours minutes).2]
    rfl
  | west hours minutes =>
    rw [UtcOffset.chars, List.map_cons, List.map_append, List.map_cons,
      parseOffset_signed rfl (.inr rfl) (hparts hours minutes).1 (hparts hours minutes).2]
    rfl

theorem UtcOffset.chars_head (o : UtcOffset) : ∃ mark rest,
    o.chars.map Char.toUInt8 = mark :: rest ∧ mark ≠ '.'.toUInt8 ∧ isAsciiDigit mark = false := by
  cases o with
  | utc => exact ⟨_, _, rfl, by decide, by decide⟩
  | east hours minutes => exact ⟨_, _, rfl, by decide, by decide⟩
  | west hours minutes => exact ⟨_, _, rfl, by decide, by decide⟩

theorem parseOffset_chars {pre : List UInt8} (hpre : pre.length = 19) (o : UtcOffset) :
    (offsetIndex (pre ++ o.chars.map Char.toUInt8)).bind
      (parseOffset (pre ++ o.chars.map Char.toUInt8)) = some o.seconds := by
  obtain ⟨mark, rest, hchars, hmark, -⟩ := o.chars_head
  have hat : (pre ++ mark :: rest)[19]? = some mark := by
    rw [List.getElem?_append_right hpre.le, hpre]
    rfl
  have hread := parseOffset_at pre o
  rw [hpre, hchars] at hread
  rw [hchars, offsetIndex, hat, if_neg (mt Option.some_inj.mp hmark), Option.bind_some, hread]

/-- A character of ASCII that no trimming takes. -/
def IsPlain (c : Char) : Prop := c.utf8Size = 1 ∧ isWhitespace c = false

instance : DecidablePred IsPlain :=
  fun c => inferInstanceAs (Decidable (c.utf8Size = 1 ∧ isWhitespace c = false))

theorem plain_decimal {width n : Nat} (hwidth : 0 < width) (h : n < 10 ^ width) :
    ∀ c ∈ decimal width n, IsPlain c := by
  intro c hc
  obtain ⟨digit, hdigit, rfl⟩ := mem_decimal hwidth h hc
  exact (digitChar_byte hdigit).2.2

theorem UtcOffset.plain_chars (o : UtcOffset) : ∀ c ∈ o.chars, IsPlain c := by
  have hparts (mark : Char) (hmark : IsPlain mark) (hours : Fin 24) (minutes : Fin 60) :
      ∀ c ∈ mark :: (decimal 2 hours ++ ':' :: decimal 2 minutes), IsPlain c := by
    rw [List.forall_mem_cons, List.forall_mem_append, List.forall_mem_cons]
    exact ⟨hmark, plain_decimal two_pos (by omega), by decide,
      plain_decimal two_pos (by omega)⟩
  cases o with
  | utc => exact forall_mem_of_all (by decide)
  | east hours minutes => exact hparts '+' (by decide) hours minutes
  | west hours minutes => exact hparts '-' (by decide) hours minutes

namespace CommitDate

variable (d : CommitDate)

theorem monthLength_le : monthLength d.year d.month ≤ 31 := by
  have hlast := yearLength_mem d.year
  obtain ⟨hlow, hhigh⟩ := d.month_mem
  unfold monthLength
  interval_cases d.month <;> simp
  omega

theorem bounds : d.year < 10 ^ 4 ∧ d.month < 10 ^ 2 ∧ d.day < 10 ^ 2 ∧ d.hour.val < 10 ^ 2 ∧
    d.minute.val < 10 ^ 2 ∧ d.second.val < 10 ^ 2 := by
  have hyear := d.year_lt
  have hmonth := d.month_mem
  have hday := d.day_mem
  have hlength := d.monthLength_le
  omega

theorem plain_chars : ∀ c ∈ d.chars, IsPlain c := by
  obtain ⟨hyear, hmonth, hday, hhour, hminute, hsecond⟩ := d.bounds
  simp only [chars, List.forall_mem_append, List.forall_mem_cons]
  exact ⟨plain_decimal (by decide) hyear, by decide, plain_decimal two_pos hmonth, by decide,
    plain_decimal two_pos hday, by decide, plain_decimal two_pos hhour, by decide,
    plain_decimal two_pos hminute, by decide, plain_decimal two_pos hsecond,
    d.offset.plain_chars⟩

theorem text_nonempty : d.text.isEmpty = false := by
  apply Bool.eq_false_iff.mpr
  intro hempty
  have hchars := congrArg String.toList (String.isEmpty_iff.mp hempty)
  rw [text, String.toList_ofList, chars, String.toList_empty] at hchars
  simp at hchars

@[simp] theorem trim_text : trim d.text = d.text := by
  apply trim_ofList
  · exact fun c hc => (d.plain_chars c (List.mem_of_mem_head? hc)).2
  · exact fun c hc => (d.plain_chars c (List.mem_of_mem_getLast? hc)).2

theorem text_bytes : d.text.toUTF8.data.toList = d.chars.map Char.toUInt8 :=
  toUTF8_ofList fun c hc => (d.plain_chars c hc).1

def clockBytes (mark : UInt8) (second : Nat) (rest : List UInt8) : List UInt8 :=
  (decimal 4 d.year).map Char.toUInt8 ++ '-'.toUInt8 :: ((decimal 2 d.month).map Char.toUInt8 ++
    '-'.toUInt8 :: ((decimal 2 d.day).map Char.toUInt8 ++
      mark :: ((decimal 2 d.hour).map Char.toUInt8 ++ ':'.toUInt8 ::
        ((decimal 2 d.minute).map Char.toUInt8 ++ ':'.toUInt8 ::
          ((decimal 2 second).map Char.toUInt8 ++ rest)))))

/-- What the server reads where the bytes are those of a date, and an offset is read from
what is behind the seconds. -/
theorem parse_clockBytes {value : String} {mark : UInt8} {second : Nat} {rest : List UInt8}
    (hbytes : (trim value).toUTF8.data.toList = d.clockBytes mark second rest)
    (hmark : mark = 'T'.toUInt8 ∨ mark = ' '.toUInt8) (hsixty : second ≤ 60)
    (hsecond : min second 59 = d.second)
    (hrest : ∀ pre : List UInt8, pre.length = 19 →
      (offsetIndex (pre ++ rest)).bind (parseOffset (pre ++ rest)) = some d.offset.seconds) :
    parseWorktreeActivityTimestamp value = some d.instant := by
  obtain ⟨hyear, hmonth, hday, hhour, hminute, -⟩ := d.bounds
  have hdigits : second < 10 ^ 2 := by omega
  obtain ⟨hmarks, hY, hM, hD, hH, hN, hS, pre, hpre, hoffset⟩ :=
    date_slices hmark rest (length_digits (by decide) hyear)
      (length_digits two_pos hmonth) (length_digits two_pos hday) (length_digits two_pos hhour)
      (length_digits two_pos hminute) (length_digits two_pos hdigits)
  have hrange : ¬(d.month < 1 ∨ d.month > 12 ∨ d.day < 1 ∨ d.day > 31 ∨
      ((d.hour.val : Nat) : Int) > 23 ∨ ((d.minute.val : Nat) : Int) > 59 ∨
      (second : Int) > 60) := by
    have hm := d.month_mem
    have hd := d.day_mem
    have hlength := d.monthLength_le
    omega
  have hlocal : d.days * 86400 + (d.hour.val : Int) * 3600 + (d.minute.val : Int) * 60 +
      min (second : Int) 59 = d.localSeconds := by
    rw [localSeconds]
    omega
  rw [parseWorktreeActivityTimestamp, hbytes, clockBytes]
  dsimp only
  rw [if_pos hmarks, hY, hM, hD, hH, hN, hS, hoffset]
  simp only [Option.bind_eq_bind, Option.bind_some,
    parseSigned_digits (parseDigits_decimal (by decide) hyear),
    parseUnsigned_digits (parseDigits_decimal two_pos hmonth),
    parseUnsigned_digits (parseDigits_decimal two_pos hday),
    parseSigned_digits (parseDigits_decimal two_pos hhour),
    parseSigned_digits (parseDigits_decimal two_pos hminute),
    parseSigned_digits (parseDigits_decimal two_pos hdigits), if_neg hrange,
    daysFromCivil_eq, hlocal, hrest pre hpre]
  rfl

theorem parse_text : parseWorktreeActivityTimestamp d.text = some d.instant := by
  have hbytes : (trim d.text).toUTF8.data.toList =
      d.clockBytes 'T'.toUInt8 d.second (d.offset.chars.map Char.toUInt8) := by
    rw [trim_text, text_bytes]
    simp only [chars, clockBytes, List.map_append, List.map_cons]
  have hsecond := d.second.isLt
  apply d.parse_clockBytes hbytes (.inl rfl) (by omega) (by omega)
  exact fun pre hpre => parseOffset_chars hpre d.offset

/-- Two texts are in the order of their clocks, and then of their offsets as they are
written. -/
theorem text_lt_iff (d' : CommitDate) :
    d.text < d'.text ↔ d.localSeconds < d'.localSeconds ∨
      d.localSeconds = d'.localSeconds ∧ d.offset.chars < d'.offset.chars := by
  obtain ⟨hY, hM, hD, hH, hN, hS⟩ := d.bounds
  obtain ⟨hY', hM', hD', hH', hN', hS'⟩ := d'.bounds
  have hdays := d.days_lt_iff d'
  have hdays' := d'.days_lt_iff d
  have hsame : d.days = d'.days ↔ d.year = d'.year ∧ d.month = d'.month ∧ d.day = d'.day := by
    omega
  have hhours := d.hour.isLt
  have hhours' := d'.hour.isLt
  have hminutes := d.minute.isLt
  have hminutes' := d'.minute.isLt
  have hseconds := d.second.isLt
  have hseconds' := d'.second.isLt
  rw [String.lt_iff_toList_lt, text, text, String.toList_ofList, String.toList_ofList, chars,
    chars, decimal_append_lt_iff (by decide) hY hY', cons_lt_cons_self_iff,
    decimal_append_lt_iff two_pos hM hM', cons_lt_cons_self_iff,
    decimal_append_lt_iff two_pos hD hD', cons_lt_cons_self_iff,
    decimal_append_lt_iff two_pos hH hH', cons_lt_cons_self_iff,
    decimal_append_lt_iff two_pos hN hN', cons_lt_cons_self_iff,
    decimal_append_lt_iff two_pos hS hS']
  unfold localSeconds
  generalize (d.offset.chars < d'.offset.chars) = offsets
  by_cases h : offsets
  · simp only [h, and_true]
    omega
  · simp only [h, and_false, or_false]
    omega

theorem days_bounds : (0 : Int) ≤ d.days + 719528 ∧ d.days + 719528 < 366 * 10000 := by
  have hyears := daysBeforeYear_eq d.year
  have hyear := d.year_lt
  have hmonths := daysBeforeMonth_le d.year d.month_mem
  have hlength := yearLength_mem d.year
  have hday := d.day_mem
  rw [days, daysBeforeYear_epoch]
  omega

theorem natAbs_instant_lt : d.instant.natAbs < 10 ^ 12 := by
  have hdays := d.days_bounds
  have hoffset : -100000 < d.offset.seconds ∧ d.offset.seconds < 100000 := by
    cases d.offset with
    | utc => decide
    | east hours minutes =>
      rw [UtcOffset.seconds]
      omega
    | west hours minutes =>
      rw [UtcOffset.seconds]
      omega
  rw [instant, localSeconds]
  omega

theorem instant_eq_of_text {d d' : CommitDate} (h : d.text = d'.text) :
    d.instant = d'.instant := by
  have hparse := d.parse_text
  rw [h, d'.parse_text] at hparse
  exact (Option.some_inj.mp hparse).symm

end CommitDate

instance neZero_hours : NeZero 24 := ⟨by decide⟩

instance neZero_minutes : NeZero 60 := ⟨by decide⟩

/-- Two offsets whose texts are in the order of the instants at which clocks show the
same. -/
def UtcOffset.Harmless : UtcOffset → UtcOffset → Prop
  | .east hours minutes, .east hours' minutes' => hours = hours' ∧ minutes = minutes'
  | .utc, .west hours minutes => hours = 0 ∧ minutes = 0
  | .west hours minutes, .utc => hours = 0 ∧ minutes = 0
  | _, _ => True

instance : ∀ o o' : UtcOffset, Decidable (o.Harmless o')
  | .east .., .east .. | .utc, .west .. | .west .., .utc =>
    inferInstanceAs (Decidable (_ ∧ _))
  | .utc, .utc | .utc, .east .. | .east .., .utc | .east .., .west .. | .west .., .east ..
  | .west .., .west .. => inferInstanceAs (Decidable True)

theorem signed_lt_iff (mark : Char) (hours hours' : Fin 24) (minutes minutes' : Fin 60) :
    mark :: (decimal 2 hours ++ ':' :: decimal 2 minutes) <
        mark :: (decimal 2 hours' ++ ':' :: decimal 2 minutes') ↔
      hours.val < hours'.val ∨ hours.val = hours'.val ∧ minutes.val < minutes'.val := by
  rw [cons_lt_cons_self_iff, decimal_append_lt_iff two_pos (by omega) (by omega),
    cons_lt_cons_self_iff, decimal_lt_iff two_pos (by omega) (by omega)]

theorem mark_lt {mark mark' : Char} (h : mark < mark') (rest rest' : List Char) :
    mark :: rest < mark' :: rest' ∧ ¬mark' :: rest' < mark :: rest := by
  rw [List.cons_lt_cons_iff, List.cons_lt_cons_iff]
  have hne : mark' ≠ mark := h.ne'
  have hle : ¬mark' < mark := not_lt_of_gt h
  tauto

theorem UtcOffset.harmless_iff (o o' : UtcOffset) :
    o.Harmless o' ↔ (o.seconds < o'.seconds → o'.chars < o.chars) ∧
      (o'.seconds < o.seconds → o.chars < o'.chars) := by
  cases o with
  | utc =>
    cases o' with
    | utc => simp [Harmless]
    | east hours minutes =>
      have hmark := mark_lt (by decide : '+' < 'Z')
        (decimal 2 hours ++ ':' :: decimal 2 minutes) []
      simp [Harmless, seconds, chars, hmark]
      omega
    | west hours minutes =>
      have hmark := mark_lt (by decide : '-' < 'Z')
        (decimal 2 hours ++ ':' :: decimal 2 minutes) []
      simp [Harmless, seconds, chars, hmark]
      omega
  | east hours minutes =>
    cases o' with
    | utc =>
      have hmark := mark_lt (by decide : '+' < 'Z')
        (decimal 2 hours ++ ':' :: decimal 2 minutes) []
      simp [Harmless, seconds, chars, hmark]
      omega
    | east hours' minutes' =>
      simp only [Harmless, seconds, chars, signed_lt_iff]
      omega
    | west hours' minutes' =>
      have hmark := mark_lt (by decide : '+' < '-')
        (decimal 2 hours ++ ':' :: decimal 2 minutes)
        (decimal 2 hours' ++ ':' :: decimal 2 minutes')
      simp [Harmless, seconds, chars, hmark]
      omega
  | west hours minutes =>
    cases o' with
    | utc =>
      have hmark := mark_lt (by decide : '-' < 'Z')
        (decimal 2 hours ++ ':' :: decimal 2 minutes) []
      simp [Harmless, seconds, chars, hmark]
      omega
    | east hours' minutes' =>
      have hmark := mark_lt (by decide : '+' < '-')
        (decimal 2 hours' ++ ':' :: decimal 2 minutes')
        (decimal 2 hours ++ ':' :: decimal 2 minutes)
      simp [Harmless, seconds, chars, hmark]
      omega
    | west hours' minutes' =>
      simp only [Harmless, seconds, chars, signed_lt_iff, true_iff]
      constructor <;> omega

end HerdrWebui.Git
