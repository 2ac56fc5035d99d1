import HerdrWebui.Git.WorktreeOrder

/-!
The keys by which worktrees are sorted, for every form of a date the server reads: with a
fraction of a second or without, with an offset or without, and with the second 60, which is
read as 59. The keys of dates long before the year 1 of Unix time start with a minus.
-/

namespace HerdrWebui.Git

/-- A date under its instant. `sixty` is a second that is written 60, and the blanks around
a date are trimmed away. Where no offset is written the time is that of UTC. -/
structure ActivityDate where
  date : CommitDate
  sixty : Bool
  spaced : Bool
  fraction : Option (List (Fin 10))
  zoned : Bool
  before : List Char
  after : List Char
  sixty_second : sixty = true → date.second = 59
  bare : zoned = false → date.offset = .utc ∧ fraction = none
  blank : ∀ c ∈ before ++ after, isWhitespace c = true

namespace ActivityDate

variable (d : ActivityDate)

def mark : Char := if d.spaced then ' ' else 'T'

def second : Nat := if d.sixty then 60 else d.date.second

def fractionChars : List Char :=
  match d.fraction with
  | none => []
  | some digits => '.' :: digits.map fun digit : Fin 10 => Nat.digitChar digit.val

def offsetChars : List Char := if d.zoned then d.date.offset.chars else []

def chars : List Char :=
  decimal 4 d.date.year ++ '-' :: (decimal 2 d.date.month ++ '-' :: (decimal 2 d.date.day ++
    d.mark :: (decimal 2 d.date.hour ++ ':' :: (decimal 2 d.date.minute ++ ':' ::
      (decimal 2 d.second ++ (d.fractionChars ++ d.offsetChars))))))

def text : String := String.ofList (d.before ++ d.chars ++ d.after)

/-- The seconds from the start of 1970 in UTC, with the second 60 as 59. -/
def instant : Int := d.date.instant

end ActivityDate

def fit32 (n : Int) : Option Int :=
  if -2147483648 ≤ n ∧ n ≤ 2147483647 then some n else none

def fit64 (n : Int) : Option Int :=
  if -9223372036854775808 ≤ n ∧ n ≤ 9223372036854775807 then some n else none

/-- The days to a date of a year that starts in March, where each step has to fit an
`i32`. -/
def marchDays32 (year : Int) (month day : Nat) : Option Int := do
  let start ← fit32 (if year ≥ 0 then year else year - 399)
  let era ← fit32 (start.tdiv 400)
  let eraYears ← fit32 (era * 400)
  let yoe ← fit32 (year - eraYears)
  let shifted ← fit32 ((month : Int) + if month > 2 then -3 else 9)
  let scaled ← fit32 (153 * shifted)
  let scaled ← fit32 (scaled + 2)
  let doy ← fit32 (scaled.tdiv 5 + day)
  let doy ← fit32 (doy - 1)
  let doe ← fit32 (yoe * 365)
  let doe ← fit32 (doe + yoe.tdiv 4)
  let doe ← fit32 (doe - yoe.tdiv 100)
  let doe ← fit32 (doe + doy)
  let eraDays ← fit32 (era * 146097)
  let days ← fit32 (eraDays + doe)
  fit32 (days - 719468)

def daysFromCivil32 (year : Int) (month day : Nat) : Option Int := do
  let year ← fit32 (year - if month ≤ 2 then 1 else 0)
  marchDays32 year month day

def offsetSeconds64 : UtcOffset → Option Int
  | .utc => some 0
  | .east hours minutes => do
      let hours ← fit64 ((hours : Int) * 3600)
      let minutes ← fit64 ((minutes : Int) * 60)
      fit64 (hours + minutes)
  | .west hours minutes => do
      let hours ← fit64 ((hours : Int) * 3600)
      let minutes ← fit64 ((minutes : Int) * 60)
      let offset ← fit64 (hours + minutes)
      fit64 (-offset)

/-- The number of a sort key, where each step has to fit its type. -/
def sortValue (date : CommitDate) : Option Int := do
  let days ← daysFromCivil32 date.year date.month date.day
  let days ← fit64 (days * 86400)
  let hours ← fit64 ((date.hour : Int) * 3600)
  let clock ← fit64 (days + hours)
  let minutes ← fit64 ((date.minute : Int) * 60)
  let clock ← fit64 (clock + minutes)
  let localSeconds ← fit64 (clock + date.second)
  let offsetSeconds ← offsetSeconds64 date.offset
  let timestamp ← fit64 (localSeconds - offsetSeconds)
  fit64 (timestamp + 20000000000)

theorem fit32_of {n : Int} (hlow : -2147483648 ≤ n) (hhigh : n ≤ 2147483647) :
    fit32 n = some n := if_pos ⟨hlow, hhigh⟩

theorem fit64_of {n : Int} (hlow : -9223372036854775808 ≤ n)
    (hhigh : n ≤ 9223372036854775807) : fit64 n = some n := if_pos ⟨hlow, hhigh⟩

theorem marchDays32_eq {year shifted era yoe : Int} {month day : Nat}
    (hyear : -1 ≤ year ∧ year ≤ 9999) (hmonth : 1 ≤ month ∧ month ≤ 12) (hday : day ≤ 31)
    (hshifted : (month : Int) + (if month > 2 then -3 else 9) = shifted)
    (hera : (if year ≥ 0 then year else year - 399).tdiv 400 = era)
    (hyoe : year - era * 400 = yoe) :
    marchDays32 year month day = some (era * 146097 +
      (yoe * 365 + yoe.tdiv 4 - yoe.tdiv 100 +
        ((153 * shifted + 2).tdiv 5 + day - 1)) - 719468) := by
  have hstart : -2147483648 ≤ (if year ≥ 0 then year else year - 399) ∧
      (if year ≥ 0 then year else year - 399) ≤ 2147483647 := by split <;> omega
  have hbounds : -1 ≤ era ∧ era ≤ 24 ∧ 0 ≤ yoe ∧ yoe ≤ 399 := by
    split at hera
    · next hpositive =>
        rw [Int.tdiv_eq_ediv_of_nonneg hpositive] at hera
        omega
    · have hfirst : year = -1 := by omega
      subst hfirst
      have hlast : era = -1 := hera.symm
      omega
  have hmonths : 0 ≤ shifted ∧ shifted ≤ 11 := by split at hshifted <;> omega
  have hdoy : 0 ≤ (153 * shifted + 2).tdiv 5 ∧ (153 * shifted + 2).tdiv 5 ≤ 337 := by
    rw [Int.tdiv_eq_ediv_of_nonneg (by omega)]
    omega
  have hquarters : 0 ≤ yoe.tdiv 4 ∧ yoe.tdiv 4 ≤ 99 := by
    rw [Int.tdiv_eq_ediv_of_nonneg (by omega)]
    omega
  have hcenturies : 0 ≤ yoe.tdiv 100 ∧ yoe.tdiv 100 ≤ 3 := by
    rw [Int.tdiv_eq_ediv_of_nonneg (by omega)]
    omega
  unfold marchDays32
  simp only [Option.bind_eq_bind]
  rw [fit32_of hstart.1 hstart.2, Option.bind_some, hera, hshifted]
  clear hstart hera hshifted hmonth
  rw [fit32_of (by omega) (by omega), Option.bind_some, fit32_of (by omega) (by omega),
    Option.bind_some, hyoe, fit32_of (by omega) (by omega), Option.bind_some,
    fit32_of (by omega) (by omega), Option.bind_some, fit32_of (by omega) (by omega),
    Option.bind_some, fit32_of (by omega) (by omega), Option.bind_some]
  -- Each quotient is a number of its own for the steps that are left.
  generalize yoe.tdiv 4 = quarters at hquarters ⊢
  generalize yoe.tdiv 100 = centuries at hcenturies ⊢
  generalize (153 * shifted + 2).tdiv 5 = doy at hdoy ⊢
  clear hyoe
  simp (disch := omega) only [fit32_of, Option.bind_some]

theorem daysFromCivil32_eq (d : CommitDate) :
    daysFromCivil32 d.year d.month d.day = some d.days := by
  have hmember := d.day_mem
  have hlength := d.monthLength_le
  have hyear := d.year_lt
  have hday : ¬(d.day = 0 ∨ d.day > monthLength d.year d.month) := by omega
  have hdays := daysFromCivil_eq d
  rw [daysFromCivil, daysInMonth_eq d.year d.month_mem, Option.bind_some, if_neg hday] at hdays
  dsimp only at hdays
  have hyears : -1 ≤ (d.year : Int) - (if d.month ≤ 2 then 1 else 0) ∧
      (d.year : Int) - (if d.month ≤ 2 then 1 else 0) ≤ 9999 := by split <;> omega
  rw [daysFromCivil32, fit32_of (by omega) (by omega), Option.bind_eq_bind, Option.bind_some]
  exact (marchDays32_eq hyears d.month_mem (by omega) rfl rfl rfl).trans hdays

theorem offsetSeconds64_eq (o : UtcOffset) :
    offsetSeconds64 o = some o.seconds ∧ -90000 < o.seconds ∧ o.seconds < 90000 := by
  cases o with
  | utc => exact ⟨rfl, by decide, by decide⟩
  | east hours minutes =>
    have hh := hours.isLt
    have hm := minutes.isLt
    simp only [offsetSeconds64, UtcOffset.seconds]
    rw [fit64_of (by omega) (by omega), fit64_of (by omega) (by omega)]
    simp only [Option.bind_eq_bind, Option.bind_some]
    rw [fit64_of (by omega) (by omega)]
    exact ⟨rfl, by omega, by omega⟩
  | west hours minutes =>
    have hh := hours.isLt
    have hm := minutes.isLt
    simp only [offsetSeconds64, UtcOffset.seconds]
    rw [fit64_of (by omega) (by omega), fit64_of (by omega) (by omega)]
    simp only [Option.bind_eq_bind, Option.bind_some]
    rw [fit64_of (by omega) (by omega), Option.bind_some, fit64_of (by omega) (by omega)]
    exact ⟨rfl, by omega, by omega⟩

theorem sortValue_eq (d : CommitDate) : sortValue d = some (d.instant + 20000000000) := by
  have hdays := d.days_bounds
  have hh := d.hour.isLt
  have hm := d.minute.isLt
  have hs := d.second.isLt
  obtain ⟨hoffset, hlow, hhigh⟩ := offsetSeconds64_eq d.offset
  rw [sortValue, daysFromCivil32_eq, hoffset]
  simp only [Option.bind_eq_bind, Option.bind_some]
  simp (disch := omega) only [fit64_of, Option.bind_some]
  rw [CommitDate.instant, CommitDate.localSeconds]

theorem trim_blanks {before chars after : List Char}
    (hblank : ∀ c ∈ before ++ after, isWhitespace c = true)
    (hfirst : ∀ c ∈ chars.head?, isWhitespace c = false)
    (hlast : ∀ c ∈ chars.getLast?, isWhitespace c = false) (hne : chars ≠ []) :
    trim (String.ofList (before ++ chars ++ after)) = String.ofList chars := by
  rw [List.forall_mem_append] at hblank
  obtain ⟨first, rest, rfl⟩ := List.exists_cons_of_ne_nil hne
  have hfront : (before ++ (first :: rest) ++ after).dropWhile isWhitespace =
      first :: rest ++ after := by
    rw [List.append_assoc, List.dropWhile_append_of_pos hblank.1, List.cons_append,
      List.dropWhile_cons_of_neg (by simp [hfirst first rfl])]
  have hback : (first :: rest).rdropWhile isWhitespace = first :: rest := by
    rw [List.rdropWhile_eq_self_iff]
    intro hnonempty
    rw [hlast _ (List.getLast?_eq_getLast_of_ne_nil hnonempty)]
    exact Bool.false_ne_true
  have hafter : (first :: rest ++ after).rdropWhile isWhitespace =
      (first :: rest).rdropWhile isWhitespace := by
    rw [List.rdropWhile, List.reverse_append, List.dropWhile_append_of_pos, List.rdropWhile]
    exact fun c hc => hblank.2 c (List.mem_reverse.mp hc)
  rw [trim_eq, String.toList_ofList, hfront, hafter, hback]

namespace ActivityDate

variable (d : ActivityDate)

theorem second_le : d.second ≤ 60 ∧ min d.second 59 = d.date.second := by
  have hlt := d.date.second.isLt
  unfold second
  cases hsixty : d.sixty with
  | false =>
    rw [if_neg Bool.false_ne_true]
    omega
  | true =>
    have hlast := congrArg Fin.val (d.sixty_second hsixty)
    rw [if_pos rfl, hlast]
    decide

theorem plain_fractionChars : ∀ c ∈ d.fractionChars, IsPlain c := by
  unfold fractionChars
  cases d.fraction with
  | none => simp
  | some digits =>
    rw [List.forall_mem_cons]
    refine ⟨by decide, fun c hc => ?_⟩
    obtain ⟨digit, -, rfl⟩ := List.mem_map.mp hc
    exact (digitChar_byte digit.isLt).2.2

theorem plain_end : ∀ c ∈ decimal 2 d.second ++ (d.fractionChars ++ d.offsetChars),
    IsPlain c := by
  have hsecond := d.second_le.1
  rw [List.forall_mem_append, List.forall_mem_append]
  refine ⟨plain_decimal two_pos (by omega), d.plain_fractionChars, ?_⟩
  unfold offsetChars
  split
  · exact d.date.offset.plain_chars
  · simp

theorem utf8Size_chars : ∀ c ∈ d.chars, c.utf8Size = 1 := by
  obtain ⟨hyear, hmonth, hday, hhour, hminute, -⟩ := d.date.bounds
  have hdigits {width n : Nat} (hwidth : 0 < width) (h : n < 10 ^ width) :
      ∀ c ∈ decimal width n, c.utf8Size = 1 := fun c hc => (plain_decimal hwidth h c hc).1
  have hend : ∀ c ∈ decimal 2 d.second ++ (d.fractionChars ++ d.offsetChars),
      c.utf8Size = 1 := fun c hc => (d.plain_end c hc).1
  have hmark : d.mark.utf8Size = 1 := by
    unfold mark
    split <;> rfl
  unfold chars
  generalize decimal 2 d.second ++ (d.fractionChars ++ d.offsetChars) = rest at hend ⊢
  simp only [List.forall_mem_append, List.forall_mem_cons]
  exact ⟨hdigits (by decide) hyear, rfl, hdigits two_pos hmonth, rfl, hdigits two_pos hday,
    hmark, hdigits two_pos hhour, rfl, hdigits two_pos hminute, rfl, hend⟩

theorem trim_text : trim d.text = String.ofList d.chars := by
  obtain ⟨hyear, -⟩ := d.date.bounds
  have hsecond := d.second_le.1
  have hyears := length_decimal (by decide) hyear
  have hseconds : (decimal 2 d.second).length = 2 := length_decimal two_pos (by omega)
  apply trim_blanks d.blank
  · intro c hc
    apply (plain_decimal (by decide) hyear c _).2
    have hne : decimal 4 d.date.year ≠ [] := by
      intro hnil
      rw [hnil] at hyears
      cases hyears
    rw [chars, List.head?_append_of_ne_nil _ hne] at hc
    exact List.mem_of_mem_head? hc
  · intro c hc
    apply (d.plain_end c _).2
    have hne : decimal 2 d.second ++ (d.fractionChars ++ d.offsetChars) ≠ [] := by
      intro hnil
      rw [(List.append_eq_nil_iff.mp hnil).1] at hseconds
      cases hseconds
    have hfront : d.chars = decimal 4 d.date.year ++ '-' :: (decimal 2 d.date.month ++
        '-' :: (decimal 2 d.date.day ++ d.mark :: (decimal 2 d.date.hour ++
          ':' :: (decimal 2 d.date.minute ++ [':'])))) ++
            (decimal 2 d.second ++ (d.fractionChars ++ d.offsetChars)) := by simp [chars]
    rw [hfront, List.getLast?_append_of_ne_nil _ hne] at hc
    exact List.mem_of_getLast? hc
  · intro hnil
    have hlength := congrArg List.length hnil
    rw [chars, List.length_append, hyears] at hlength
    simp at hlength

theorem chars_bytes : (String.ofList d.chars).toUTF8.data.toList =
    d.date.clockBytes d.mark.toUInt8 d.second
      ((d.fractionChars ++ d.offsetChars).map Char.toUInt8) := by
  rw [toUTF8_ofList d.utf8Size_chars, CommitDate.clockBytes]
  simp only [chars, List.map_append, List.map_cons]

theorem findIdx?_fraction (digits : List (Fin 10)) (rest : List UInt8) {mark : UInt8}
    (hmark : isAsciiDigit mark = false) :
    ((digits.map fun digit : Fin 10 => Nat.digitChar digit.val).map Char.toUInt8 ++
      mark :: rest).findIdx? (fun byte => !isAsciiDigit byte) = some digits.length := by
  induction digits with
  | nil => simp [List.findIdx?_cons, hmark]
  | cons digit digits ih =>
    have hdigit := (digitChar_byte digit.isLt).1
    rw [List.map_cons, List.map_cons, List.cons_append, List.findIdx?_cons, hdigit, ih]
    rfl

theorem parseOffset_end {pre : List UInt8} (hpre : pre.length = 19) :
    (offsetIndex (pre ++ (d.fractionChars ++ d.offsetChars).map Char.toUInt8)).bind
        (parseOffset (pre ++ (d.fractionChars ++ d.offsetChars).map Char.toUInt8)) =
      some d.date.offset.seconds := by
  unfold fractionChars offsetChars
  cases hzoned : d.zoned with
  | false =>
    obtain ⟨hutc, hnone⟩ := d.bare hzoned
    have hat : pre[19]? = none := List.getElem?_eq_none hpre.le
    rw [hnone, hutc, if_neg Bool.false_ne_true]
    simp [offsetIndex, parseOffset, hat, UtcOffset.seconds]
  | true =>
    rw [if_pos rfl]
    cases d.fraction with
    | none => exact parseOffset_chars hpre d.date.offset
    | some digits =>
      obtain ⟨mark, rest, hchars, -, hmark⟩ := d.date.offset.chars_head
      obtain ⟨shown, hshown⟩ : ∃ shown,
          (digits.map fun digit : Fin 10 => Nat.digitChar digit.val).map Char.toUInt8 = shown :=
        ⟨_, rfl⟩
      have hfind := findIdx?_fraction digits rest hmark
      have hlength : shown.length = digits.length := by simp [← hshown]
      have hbytes : pre ++ ('.' :: (digits.map fun digit : Fin 10 =>
          Nat.digitChar digit.val) ++ d.date.offset.chars).map Char.toUInt8 =
            (pre ++ '.'.toUInt8 :: shown) ++ d.date.offset.chars.map Char.toUInt8 := by
        simp [← hshown]
      have hpoint : ((pre ++ '.'.toUInt8 :: shown) ++
          d.date.offset.chars.map Char.toUInt8)[19]? = some '.'.toUInt8 := by
        rw [List.append_assoc, List.getElem?_append_right hpre.le, hpre]
        rfl
      have hdrop : ((pre ++ '.'.toUInt8 :: shown) ++
          d.date.offset.chars.map Char.toUInt8).drop 20 =
            shown ++ d.date.offset.chars.map Char.toUInt8 := by
        have hcut : (pre ++ '.'.toUInt8 :: shown) ++ d.date.offset.chars.map Char.toUInt8 =
            (pre ++ ['.'.toUInt8]) ++ (shown ++ d.date.offset.chars.map Char.toUInt8) := by
          simp
        rw [hcut, List.drop_left' (by simp [hpre])]
      have hread := parseOffset_at (pre ++ '.'.toUInt8 :: shown) d.date.offset
      have hindex : (pre ++ '.'.toUInt8 :: shown).length = 20 + digits.length := by
        rw [List.length_append, List.length_cons, hpre, hlength]
        omega
      rw [hshown, ← hchars] at hfind
      rw [hbytes, offsetIndex, if_pos hpoint, hdrop, hfind, Option.map_some,
        Option.bind_some, ← hindex, hread]

theorem parse_text : parseWorktreeActivityTimestamp d.text = some d.instant := by
  have hbytes : (trim d.text).toUTF8.data.toList = d.date.clockBytes d.mark.toUInt8 d.second
      ((d.fractionChars ++ d.offsetChars).map Char.toUInt8) := by
    rw [d.trim_text, d.chars_bytes]
  have hmark : d.mark.toUInt8 = 'T'.toUInt8 ∨ d.mark.toUInt8 = ' '.toUInt8 := by
    unfold mark
    split
    · exact .inr rfl
    · exact .inl rfl
  exact d.date.parse_clockBytes hbytes hmark d.second_le.1
    d.second_le.2 fun pre hpre => d.parseOffset_end hpre

theorem text_nonempty : d.text.isEmpty = false := by
  apply Bool.eq_false_iff.mpr
  intro hempty
  have htrim := d.trim_text
  rw [String.isEmpty_iff.mp hempty] at htrim
  have hchars := congrArg String.toList htrim
  rw [String.toList_ofList, chars] at hchars
  have hnil : (trim "").toList = [] := rfl
  rw [hnil] at hchars
  simp at hchars

theorem sortKey_eq {row : Json} (hrow : rowActivityDate row = some d.text) :
    worktreeActivitySortKey row = "2:" ++ padded20 (d.instant + 20000000000) := by
  rw [worktreeActivitySortKey, hrow, Option.getD_some, d.text_nonempty,
    if_neg Bool.false_ne_true, d.parse_text]

end ActivityDate

/-- The values that are read are the instants, no step overflows, and the keys are in the
order of the instants. -/
structure KeysOrder (d d' : ActivityDate) (row row' : Json) : Prop where
  reads : parseWorktreeActivityTimestamp d.text = some d.instant
  reads' : parseWorktreeActivityTimestamp d'.text = some d'.instant
  fits : sortValue d.date = some (d.instant + 20000000000)
  fits' : sortValue d'.date = some (d'.instant + 20000000000)
  lt_iff : worktreeActivitySortKey row < worktreeActivitySortKey row' ↔ d.instant < d'.instant
  lt_iff' : worktreeActivitySortKey row' < worktreeActivitySortKey row ↔ d'.instant < d.instant

/-- Two keys are in the order of the instants but where both instants are different ones of
long ago. -/
theorem sortKeys_order_iff {d d' : ActivityDate} {row row' : Json}
    (hrow : rowActivityDate row = some d.text) (hrow' : rowActivityDate row' = some d'.text) :
    KeysOrder d d' row row' ↔
      d.instant = d'.instant ∨ -20000000000 ≤ d.instant ∨ -20000000000 ≤ d'.instant := by
  have hbound := d.date.natAbs_instant_lt
  have hbound' := d'.date.natAbs_instant_lt
  have hkeys : (worktreeActivitySortKey row < worktreeActivitySortKey row' ↔
        d.instant < d'.instant) ∧
      (worktreeActivitySortKey row' < worktreeActivitySortKey row ↔
        d'.instant < d.instant) ↔
      d.instant = d'.instant ∨ -20000000000 ≤ d.instant ∨ -20000000000 ≤ d'.instant := by
    rw [d.sortKey_eq hrow, d'.sortKey_eq hrow', lt_append_iff, lt_append_iff,
      padded20_lt_iff (by rw [ActivityDate.instant]; omega)
        (by rw [ActivityDate.instant]; omega),
      padded20_lt_iff (by rw [ActivityDate.instant]; omega)
        (by rw [ActivityDate.instant]; omega)]
    constructor
    · rintro ⟨hlt, hlt'⟩
      split at hlt <;> split at hlt' <;> omega
    · intro h
      constructor <;> split <;> omega
  constructor
  · intro h
    exact hkeys.mp ⟨h.lt_iff, h.lt_iff'⟩
  · intro h
    obtain ⟨hlt, hlt'⟩ := hkeys.mpr h
    exact ⟨d.parse_text, d'.parse_text, sortValue_eq d.date, sortValue_eq d'.date, hlt, hlt'⟩

def newYear (year : Fin 10000) (second : Fin 60) : ActivityDate where
  date := ⟨year, 1, 1, 0, 0, second, .utc, year.isLt, by decide, by simp [monthLength]⟩
  sixty := false
  spaced := false
  fraction := none
  zoned := true
  before := []
  after := []
  sixty_second := Bool.noConfusion
  bare := Bool.noConfusion
  blank := by simp

def activityRow (d : ActivityDate) : Json := .object [("last_commit_at", .string d.text)]

theorem rowActivityDate_activityRow (d : ActivityDate) :
    rowActivityDate (activityRow d) = some d.text := rfl

theorem instant_of_parse {d : ActivityDate} {n : Int}
    (h : parseWorktreeActivityTimestamp d.text = some n) : d.instant = n :=
  Option.some.inj (d.parse_text.symm.trans h)

theorem sortKeys_newYear :
    KeysOrder (newYear 2024 0) (newYear 2024 1) (activityRow (newYear 2024 0))
      (activityRow (newYear 2024 1)) := by
  have hinstant : (newYear 2024 0).instant = 1704067200 := instant_of_parse (by decide +kernel)
  apply (sortKeys_order_iff (rowActivityDate_activityRow _) (rowActivityDate_activityRow _)).mpr
  rw [hinstant]
  exact .inr (.inl (by decide))

/-- Of two dates of the year 1000 the later has the smaller key. -/
theorem sortKeys_longAgo : (newYear 1000 0).instant < (newYear 1000 1).instant ∧
    worktreeActivitySortKey (activityRow (newYear 1000 1)) <
      worktreeActivitySortKey (activityRow (newYear 1000 0)) := by
  have hfirst : (newYear 1000 0).instant = -30610224000 := instant_of_parse (by decide +kernel)
  have hsecond : (newYear 1000 1).instant = -30610223999 := instant_of_parse (by decide +kernel)
  rw [hfirst, hsecond]
  exact ⟨by decide, by decide +kernel⟩

end HerdrWebui.Git
