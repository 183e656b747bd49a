import Mathlib.Data.List.DropRight
import Mathlib.Tactic.Ring
import ProcessBus.Go.Time

/-!
# Times as text

`time.Time.Format` and `time.Parse` with the layout `time.RFC3339Nano`, in the proleptic Gregorian
calendar: a date, a time of day, as many digits of the second as it takes, and a zone.  A time is
always formatted in UTC.  `parseRFC3339` follows RFC 3339; the forms that `time.Parse` accepts
beyond it (a comma before the fraction, an hour of one digit) are left out.

Days are counted from 1 March of a year divisible by 400, so that the leap day is the last of its
year.  Every time with a year of four digits comes back from its text (`parse_format`).
-/

namespace ProcessBus.Go

/-! ## Dates -/

/-- A date. -/
structure Date where
  year : ℤ
  month : ℤ
  day : ℤ
deriving DecidableEq, Repr

/-- Year of the era of 400 years, and day of that year, for a day of the era: by centuries, by
groups of four years and by years, the last of which may have a day more. -/
def ofEra (doe : ℤ) : ℤ × ℤ :=
  let century := doe / 36524 - doe / 146096
  let doc := doe - 36524 * century
  let group := doc / 1461
  let dog := doc - 1461 * group
  let year := dog / 365 - dog / 1460
  (100 * century + 4 * group + year, dog - 365 * year)

/-- The month with number `mp`, counted from March. -/
def monthOf (mp : ℤ) : ℤ := if mp < 10 then mp + 3 else mp - 9

/-- `t.Date()`, of a day counted from 1 January 1970. -/
def civil (days : ℤ) : Date :=
  let z := days + 719468
  let (yoe, doy) := ofEra (z % 146097)
  let mp := (5 * doy + 2) / 153
  ⟨yoe + z / 146097 * 400 + (if monthOf mp ≤ 2 then 1 else 0), monthOf mp,
    doy - (153 * mp + 2) / 5 + 1⟩

/-- The day of a date. -/
def daysOf (d : Date) : ℤ :=
  let y := if d.month ≤ 2 then d.year - 1 else d.year
  let mp := if d.month ≤ 2 then d.month + 9 else d.month - 3
  let yoe := y % 400
  y / 400 * 146097 + (365 * yoe + yoe / 4 - yoe / 100 + ((153 * mp + 2) / 5 + d.day - 1)) - 719468

/-- `isLeap`. -/
def isLeap (year : ℤ) : Bool := year % 4 = 0 && (year % 100 ≠ 0 || year % 400 = 0)

/-- `daysIn`. -/
def daysIn (month year : ℤ) : ℤ :=
  if month = 2 then if isLeap year then 29 else 28
  else if month = 4 ∨ month = 6 ∨ month = 9 ∨ month = 11 then 30
  else 31

/-- The years of an era begin on the days that their numbers say, and one has 366 days only if the
next year is a leap year. -/
theorem ofEra_spec {doe yoe doy : ℤ} (h0 : 0 ≤ doe) (h1 : doe < 146097)
    (h : ofEra doe = (yoe, doy)) :
    (0 ≤ yoe ∧ yoe < 400) ∧ (0 ≤ doy ∧ doy ≤ 365) ∧ 365 * yoe + yoe / 4 - yoe / 100 + doy = doe ∧
      (doy = 365 → (yoe + 1) % 4 = 0 ∧ ((yoe + 1) % 100 ≠ 0 ∨ yoe + 1 = 400)) := by
  obtain ⟨rfl, rfl⟩ := Prod.mk.inj h
  clear h
  have hc : 0 ≤ doe / 36524 - doe / 146096 ∧ doe / 36524 - doe / 146096 ≤ 3 := by omega
  have hdoc : 0 ≤ doe - 36524 * (doe / 36524 - doe / 146096) ∧
      (doe - 36524 * (doe / 36524 - doe / 146096) < 36524 ∨
        doe - 36524 * (doe / 36524 - doe / 146096) = 36524 ∧
          doe / 36524 - doe / 146096 = 3) := by omega
  generalize doe / 36524 - doe / 146096 = c at hc hdoc ⊢
  obtain ⟨doc, rfl⟩ : ∃ doc, doe = doc + 36524 * c := ⟨doe - 36524 * c, by omega⟩
  simp only [Int.add_sub_cancel] at hdoc ⊢
  have hq : 0 ≤ doc / 1461 ∧ doc / 1461 ≤ 24 := by omega
  have hdog : 0 ≤ doc - 1461 * (doc / 1461) ∧ doc - 1461 * (doc / 1461) ≤ 1460 ∧
      (doc - 1461 * (doc / 1461) = 1460 → doc / 1461 = 24 → c = 3) := by omega
  generalize doc / 1461 = q at hq hdog ⊢
  obtain ⟨dog, rfl⟩ : ∃ dog, doc = dog + 1461 * q := ⟨doc - 1461 * q, by omega⟩
  simp only [Int.add_sub_cancel] at hdog ⊢
  have hy : 0 ≤ dog / 365 - dog / 1460 ∧ dog / 365 - dog / 1460 ≤ 3 := by omega
  have hdoy : 0 ≤ dog - 365 * (dog / 365 - dog / 1460) ∧
      dog - 365 * (dog / 365 - dog / 1460) ≤ 365 ∧
      (dog - 365 * (dog / 365 - dog / 1460) = 365 →
        dog = 1460 ∧ dog / 365 - dog / 1460 = 3) := by omega
  generalize dog / 365 - dog / 1460 = y at hy hdoy ⊢
  have h4 : (100 * c + 4 * q + y) / 4 = 25 * c + q := by omega
  have h100 : (100 * c + 4 * q + y) / 100 = c := by omega
  rw [h4, h100]
  refine ⟨by omega, by omega, by omega, fun hlast ↦ ?_⟩
  obtain ⟨hlast, rfl⟩ := hdoy.2.2 hlast
  omega

/-- The month of a day counted from 1 March, and the day of that month. -/
theorem month_spec {doy mp : ℤ} (h0 : 0 ≤ doy) (h1 : doy ≤ 365) (hmp : (5 * doy + 2) / 153 = mp) :
    (0 ≤ mp ∧ mp ≤ 11) ∧ (153 * mp + 2) / 5 ≤ doy ∧ 5 * doy + 2 < 153 * mp + 153 := by
  omega

/-- The parts of a date, from the year and the day of the era. -/
theorem civil_eq (days : ℤ) : ∃ yoe doy mp,
    (0 ≤ yoe ∧ yoe < 400) ∧ (0 ≤ doy ∧ doy ≤ 365) ∧ (5 * doy + 2) / 153 = mp ∧
      365 * yoe + yoe / 4 - yoe / 100 + doy = (days + 719468) % 146097 ∧
      (doy = 365 → (yoe + 1) % 4 = 0 ∧ ((yoe + 1) % 100 ≠ 0 ∨ yoe + 1 = 400)) ∧
      civil days =
        ⟨yoe + (days + 719468) / 146097 * 400 + (if monthOf mp ≤ 2 then 1 else 0), monthOf mp,
          doy - (153 * mp + 2) / 5 + 1⟩ := by
  obtain ⟨hy, hd, hsum, hleap⟩ := ofEra_spec (Int.emod_nonneg (days + 719468) (by decide))
    (Int.emod_lt_of_pos _ (by decide)) rfl
  exact ⟨_, _, _, hy, hd, rfl, hsum, hleap, rfl⟩

/-- A date determines its day. -/
theorem daysOf_civil (days : ℤ) : daysOf (civil days) = days := by
  obtain ⟨yoe, doy, mp, hyoe, hdoy, hmp, hsum, -, hcivil⟩ := civil_eq days
  obtain ⟨hmp, hfirst, -⟩ := month_spec hdoy.1 hdoy.2 hmp
  have hmonth : (if monthOf mp ≤ 2 then monthOf mp + 9 else monthOf mp - 3) = mp := by
    unfold monthOf
    split_ifs <;> omega
  rw [hcivil]
  unfold daysOf
  dsimp only
  rw [hmonth]
  have hera := Int.emod_add_mul_ediv (days + 719468) 146097
  generalize (days + 719468) / 146097 = era at hera ⊢
  generalize (days + 719468) % 146097 = doe at hsum hera
  have hyear : (if monthOf mp ≤ 2 then yoe + era * 400 + (if monthOf mp ≤ 2 then 1 else 0) - 1
      else yoe + era * 400 + (if monthOf mp ≤ 2 then 1 else 0)) = yoe + era * 400 := by
    split_ifs <;> omega
  have hmod : (yoe + era * 400) % 400 = yoe := by omega
  have hdiv : (yoe + era * 400) / 400 = era := by omega
  rw [hyear, hmod, hdiv]
  omega

/-- The months have the days that they have. -/
theorem civil_valid (days : ℤ) :
    (1 ≤ (civil days).month ∧ (civil days).month ≤ 12) ∧ 1 ≤ (civil days).day ∧
      (civil days).day ≤ daysIn (civil days).month (civil days).year := by
  obtain ⟨yoe, doy, mp, -, hdoy, hmp, -, hleap, hcivil⟩ := civil_eq days
  obtain ⟨hmp, hfirst, hlast⟩ := month_spec hdoy.1 hdoy.2 hmp
  rw [hcivil]
  dsimp only
  have hmonth : 1 ≤ monthOf mp ∧ monthOf mp ≤ 12 := by
    unfold monthOf
    split_ifs <;> omega
  refine ⟨hmonth, by omega, ?_⟩
  by_cases hday : doy = 365
  · obtain rfl : mp = 11 := by omega
    obtain ⟨h4, h100⟩ := hleap hday
    have hyear : isLeap (yoe + (days + 719468) / 146097 * 400 + 1) = true := by
      simp only [isLeap, Bool.and_eq_true, Bool.or_eq_true, decide_eq_true_eq]
      omega
    simp [daysIn, monthOf, hyear, hday]
  · simp only [daysIn, monthOf]
    split_ifs <;> omega

/-! ## Digits -/

/-- `appendInt`: a sign if it takes one, and at least `width` digits. -/
def appendInt (x : ℤ) (width : ℕ) : List Char :=
  (if x < 0 then ['-'] else []) ++ (Nat.toDigits 10 x.natAbs).leftpad width '0'

/-- A number of exactly `width` digits, and the rest. -/
def number (width : ℕ) (s : List Char) : Option (ℤ × List Char) :=
  if width ≤ s.length ∧ (s.take width).all Char.isDigit then
    some (Nat.ofDigitChars 10 (s.take width) 0, s.drop width)
  else none

/-- A character that has to be there, and the rest. -/
def expect (c : Char) : List Char → Option (List Char)
  | [] => none
  | d :: s => if d = c then some s else none

theorem expect_cons (c : Char) (s : List Char) : expect c (c :: s) = some s := if_pos rfl

/-- What `width` digits of a number are. -/
theorem appendInt_spec (width : ℕ) {x : ℤ} (h0 : 0 ≤ x) (h : x < 10 ^ width) (hw : 0 < width) :
    (appendInt x width).length = width ∧ (∀ c ∈ appendInt x width, c.isDigit) ∧
      (Nat.ofDigitChars 10 (appendInt x width) 0 : ℤ) = x := by
  have hlen : (Nat.toDigits 10 x.natAbs).length ≤ width := by
    rw [Nat.length_toDigits_le_iff (by decide) hw]
    zify
    rwa [abs_of_nonneg h0]
  have hpad : appendInt x width =
      List.replicate (width - (Nat.toDigits 10 x.natAbs).length) '0' ++
        Nat.toDigits 10 x.natAbs := by
    rw [appendInt, if_neg (by omega), List.nil_append, List.leftpad]
  rw [hpad]
  refine ⟨by simp; omega, ?_, ?_⟩
  · intro c hc
    rcases List.mem_append.mp hc with hc | hc
    · rw [List.eq_of_mem_replicate hc]
      rfl
    · exact Nat.isDigit_of_mem_toDigits (by decide) (by decide) hc
  · rw [Nat.ofDigitChars_append, Nat.ofDigitChars_replicate_zero, Nat.mul_zero,
      Nat.ofDigitChars_ten_toDigits]
    omega

/-- A number is read back. -/
theorem number_appendInt {x : ℤ} {width : ℕ} (h0 : 0 ≤ x) (h : x < 10 ^ width) (hw : 0 < width)
    (s : List Char) : number width (appendInt x width ++ s) = some (x, s) := by
  obtain ⟨hlen, hdigits, hvalue⟩ := appendInt_spec width h0 h hw
  have htake : (appendInt x width ++ s).take width = appendInt x width := by
    rw [List.take_append_of_le_length hlen.ge, List.take_of_length_le hlen.le]
  have hdrop : (appendInt x width ++ s).drop width = s := by
    rw [List.drop_append_of_le_length hlen.ge, List.drop_of_length_le hlen.le, List.nil_append]
  rw [number, htake, hdrop, hvalue, if_pos]
  refine ⟨by simp [hlen], List.all_eq_true.mpr hdigits⟩

/-! ## Fractions of a second -/

/-- The digits of the nanoseconds, without the zeros at the end. -/
def fractionDigits (ns : ℤ) : List Char := (appendInt ns 9).rdropWhile (· == '0')

/-- The fraction `.999999999`. -/
def formatFraction (ns : ℤ) : List Char :=
  if fractionDigits ns = [] then [] else '.' :: fractionDigits ns

/-- `parseNanoseconds`: nine digits count. -/
def parseNanoseconds (digits : List Char) : ℤ :=
  Nat.ofDigitChars 10 (digits.take 9) 0 * 10 ^ (9 - (digits.take 9).length)

/-- A fraction, if there is one, and the rest. -/
def parseFraction : List Char → ℤ × List Char
  | '.' :: d :: s =>
      if d.isDigit then
        (parseNanoseconds ((d :: s).takeWhile Char.isDigit), (d :: s).dropWhile Char.isDigit)
      else (0, '.' :: d :: s)
  | s => (0, s)

/-- The digits that are left say the nanoseconds. -/
theorem parseNanoseconds_fractionDigits {ns : ℤ} (h0 : 0 ≤ ns) (h : ns < 1000000000) :
    parseNanoseconds (fractionDigits ns) = ns := by
  obtain ⟨hlen, -, hvalue⟩ := appendInt_spec 9 h0 (by omega) (by decide)
  have hsplit : fractionDigits ns ++ (appendInt ns 9).rtakeWhile (· == '0') = appendInt ns 9 :=
    List.rdropWhile_append_rtakeWhile
  have hzeros : (appendInt ns 9).rtakeWhile (· == '0') =
      List.replicate ((appendInt ns 9).rtakeWhile (· == '0')).length '0' := by
    refine List.eq_replicate_of_mem fun c hc ↦ ?_
    simpa using List.mem_rtakeWhile_imp hc
  generalize (appendInt ns 9).rtakeWhile (· == '0') = zeros at hsplit hzeros
  have hlength := congrArg List.length hsplit
  rw [List.length_append, hlen] at hlength
  rw [← hsplit, hzeros, Nat.ofDigitChars_append, Nat.ofDigitChars_replicate_zero] at hvalue
  have hmissing : 9 - (fractionDigits ns).length = zeros.length := by omega
  rw [parseNanoseconds, List.take_of_length_le (by omega), hmissing]
  refine Eq.trans ?_ hvalue
  push_cast
  ring

theorem isDigit_of_mem_fractionDigits {ns : ℤ} (h0 : 0 ≤ ns) (h : ns < 1000000000) :
    ∀ c ∈ fractionDigits ns, c.isDigit := by
  obtain ⟨-, hdigits, -⟩ := appendInt_spec 9 h0 (by omega) (by decide)
  exact fun c hc ↦ hdigits c ((List.rdropWhile_prefix _ _).subset hc)

/-- A fraction before the letter of the zone is read back. -/
theorem parseFraction_format {ns : ℤ} (h0 : 0 ≤ ns) (h : ns < 1000000000) :
    parseFraction (formatFraction ns ++ ['Z']) = (ns, ['Z']) := by
  have hvalue := parseNanoseconds_fractionDigits h0 h
  have hdigits := isDigit_of_mem_fractionDigits h0 h
  unfold formatFraction
  split
  · rename_i hnil
    rw [hnil] at hvalue
    rw [← hvalue]
    rfl
  · rename_i hcons
    obtain ⟨d, s, hds⟩ := List.exists_cons_of_ne_nil hcons
    rw [hds] at hvalue hdigits ⊢
    have htake : ((d :: s) ++ ['Z']).takeWhile Char.isDigit = d :: s := by
      rw [List.takeWhile_append_of_pos hdigits]
      exact List.append_nil _
    have hdrop : ((d :: s) ++ ['Z']).dropWhile Char.isDigit = ['Z'] := by
      rw [List.dropWhile_append_of_pos hdigits]
      rfl
    rw [List.cons_append, List.cons_append, parseFraction, if_pos (hdigits d List.mem_cons_self),
      ← List.cons_append, htake, hdrop, hvalue]

/-! ## Times -/

/-- The date `2006-01-02`. -/
def formatDate (d : Date) : List Char :=
  appendInt d.year 4 ++ '-' :: (appendInt d.month 2 ++ '-' :: appendInt d.day 2)

/-- The time of day `15:04:05`, of a second of the day. -/
def formatClock (s : ℤ) : List Char :=
  appendInt (s / 3600) 2 ++ ':' :: (appendInt (s / 60 % 60) 2 ++ ':' :: appendInt (s % 60) 2)

/-- `t.UTC().Format(time.RFC3339Nano)`. -/
def formatRFC3339Nano (t : Time) : List Char :=
  formatDate (civil (t.unix / 86400)) ++ 'T' :: (formatClock (t.unix % 86400) ++
    (formatFraction t.nanosecond ++ ['Z']))

/-- A date that exists, and the rest. -/
def parseDate (s : List Char) : Option (Date × List Char) := do
  let (year, s) ← number 4 s
  let s ← expect '-' s
  let (month, s) ← number 2 s
  let s ← expect '-' s
  let (day, s) ← number 2 s
  guard ((1 ≤ month ∧ month ≤ 12) ∧ 1 ≤ day ∧ day ≤ daysIn month year)
  return (⟨year, month, day⟩, s)

/-- A second of the day, and the rest. -/
def parseClock (s : List Char) : Option (ℤ × List Char) := do
  let (hour, s) ← number 2 s
  let s ← expect ':' s
  let (min, s) ← number 2 s
  let s ← expect ':' s
  let (sec, s) ← number 2 s
  guard (hour < 24 ∧ min < 60 ∧ sec < 60)
  return (hour * 3600 + min * 60 + sec, s)

/-- Seconds of the zone `Z07:00`. -/
def parseZone (s : List Char) : Option ℤ :=
  if s = ['Z'] then some 0
  else do
    let sign ← s.head?
    guard (sign = '+' ∨ sign = '-')
    let (hour, s) ← number 2 s.tail
    let s ← expect ':' s
    let (min, s) ← number 2 s
    guard (hour ≤ 24 ∧ min ≤ 60 ∧ s = [])
    return (if sign = '-' then -1 else 1) * (hour * 3600 + min * 60)

/-- `time.Parse(time.RFC3339Nano, s)`. -/
def parseRFC3339 (s : List Char) : Option Time := do
  let (date, s) ← parseDate s
  let s ← expect 'T' s
  let (clock, s) ← parseClock s
  let (ns, s) := parseFraction s
  let offset ← parseZone s
  return .ofUnix (daysOf date * 86400 + clock - offset) ns

theorem daysIn_le (month year : ℤ) : daysIn month year ≤ 31 := by
  unfold daysIn
  split_ifs <;> decide

/-- The date of a day is read back. -/
theorem parseDate_format {days : ℤ} (h0 : 0 ≤ (civil days).year) (h : (civil days).year < 10000)
    (s : List Char) : parseDate (formatDate (civil days) ++ s) = some (civil days, s) := by
  obtain ⟨hmonth, hday0, hday1⟩ := civil_valid days
  have hlong := daysIn_le (civil days).month (civil days).year
  simp only [parseDate, formatDate, List.append_assoc, List.cons_append, Option.bind_eq_bind]
  rw [number_appendInt h0 h (by decide), Option.bind_some, expect_cons, Option.bind_some,
    number_appendInt (by omega) (by omega) (by decide), Option.bind_some, expect_cons,
    Option.bind_some, number_appendInt (by omega) (by omega) (by decide), Option.bind_some, guard,
    if_pos ⟨hmonth, hday0, hday1⟩]
  rfl

/-- The second of a day is read back. -/
theorem parseClock_format {sec : ℤ} (h0 : 0 ≤ sec) (h : sec < 86400) (s : List Char) :
    parseClock (formatClock sec ++ s) = some (sec, s) := by
  have hclock : sec / 3600 * 3600 + sec / 60 % 60 * 60 + sec % 60 = sec := by omega
  simp only [parseClock, formatClock, List.append_assoc, List.cons_append, Option.bind_eq_bind]
  rw [number_appendInt (by omega) (by omega) (by decide), Option.bind_some, expect_cons,
    Option.bind_some, number_appendInt (by omega) (by omega) (by decide), Option.bind_some,
    expect_cons, Option.bind_some, number_appendInt (by omega) (by omega) (by decide),
    Option.bind_some, hclock, guard, if_pos (by omega)]
  rfl

/-- **A time with a year of four digits comes back from its text.** -/
theorem parse_format {t : Time} (h0 : 0 ≤ (civil (t.unix / 86400)).year)
    (h : (civil (t.unix / 86400)).year < 10000) : parseRFC3339 (formatRFC3339Nano t) = some t := by
  have hzone : parseZone ['Z'] = some 0 := rfl
  have htime : Time.ofUnix (t.unix / 86400 * 86400 + t.unix % 86400 - 0) t.nanosecond = t := by
    ext
    simp only [Time.ofUnix, Time.unix, Time.nanosecond]
    omega
  simp only [parseRFC3339, formatRFC3339Nano, Option.bind_eq_bind]
  rw [parseDate_format h0 h, Option.bind_some, expect_cons, Option.bind_some,
    parseClock_format (by omega) (by omega), Option.bind_some,
    parseFraction_format t.nanosecond_nonneg t.nanosecond_lt, hzone, Option.bind_some,
    daysOf_civil, htime]
  rfl

/-- The times that a `UtcTime` can carry have years of four digits. -/
theorem year_of_unix {sec : ℤ} (h0 : 0 ≤ sec) (h : sec < 2 ^ 32) :
    0 ≤ (civil (sec / 86400)).year ∧ (civil (sec / 86400)).year < 10000 := by
  obtain ⟨yoe, doy, mp, hyoe, -, -, -, -, hcivil⟩ := civil_eq (sec / 86400)
  rw [hcivil]
  dsimp only
  split_ifs <;> omega

end ProcessBus.Go
