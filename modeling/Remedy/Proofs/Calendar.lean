import Mathlib.Algebra.Order.Group.Nat
import Mathlib.Data.List.TakeWhile
import Mathlib.Tactic.ByContra
import Remedy.Calendar
import Remedy.Proofs.Text.Ascii

/-!
# Moments that are written and read again

What `stampText` writes of a moment is read as a date and a time by `checkStamp`
(`checkStamp_stampText`), up to the end of the year 9999, behind which no date can be written.

A year begins `daysBefore` it and is over when the next one begins (`daysBefore_succ`), so a day
lies in the last year that begins on it or before (`ofDays_spec`), and in one of the months of that
year (`monthAndDay_spec`).
-/

set_option autoImplicit false

namespace Remedy.Calendar

/-! ### Numbers with leading zeros -/

variable {places n : Nat}

theorem natOf_padded (places n : Nat) : Json.natOf (padded places n).toList = n := by
  have hzeros : ∀ count, (List.replicate count '0').foldl
      (fun n (c : Char) ↦ 10 * n + (c.toNat - 48)) 0 = 0 := by
    intro count
    induction count with
    | zero => rfl
    | succ count ih => exact ih
  have hdigits : (Nat.toDigits 10 n).foldl (fun n (c : Char) ↦ 10 * n + (c.toNat - 48)) 0 = n :=
    Nat.ofDigitChars_ten_toDigits
  rw [Json.natOf, padded, String.toList_ofList, List.foldl_append, hzeros, hdigits]

theorem isDigit_padded : ∀ c ∈ (padded places n).toList, isDigit c = true := by
  intro c hc
  rw [padded, String.toList_ofList, List.mem_append] at hc
  rcases hc with hc | hc
  · rw [(List.mem_replicate.mp hc).2]
    rfl
  · exact Nat.isDigit_of_mem_toDigits (by decide) (by decide) hc

/-- A number begins with a digit. -/
theorem padded_eq_cons (places n : Nat) :
    ∃ c cs, (padded places n).toList = c :: cs ∧ isDigit c = true := by
  have hne : (padded places n).toList ≠ [] := by
    rw [padded, String.toList_ofList]
    exact List.append_ne_nil_of_right_ne_nil _ Nat.toDigits_ne_nil
  obtain ⟨c, cs, hcs⟩ := List.exists_cons_of_ne_nil hne
  exact ⟨c, cs, hcs, isDigit_padded c (hcs ▸ List.mem_cons_self)⟩

theorem length_padded (hplaces : 0 < places) (h : n < 10 ^ places) :
    (padded places n).toList.length = places := by
  have hle := (Nat.length_toDigits_le_iff (by decide : 1 < 10) hplaces).mpr h
  rw [padded, String.toList_ofList, List.length_append, List.length_replicate]
  omega

theorem digits?_padded (places : Nat) (hplaces : 0 < places) (h : n < 10 ^ places)
    (rest : List Char) :
    digits? places ((padded places n).toList ++ rest) = some (n, rest) := by
  have hlength := length_padded hplaces h
  have hall : (padded places n).toList.all isDigit = true := List.all_eq_true.mpr isDigit_padded
  rw [digits?, List.take_left' hlength, List.drop_left' hlength]
  simp only [hlength, hall, and_self, if_true, natOf_padded]

/-! ### Years and months -/

theorem isLeap_iff {year : Nat} :
    isLeap year = true ↔ 4 ∣ year ∧ (¬ 100 ∣ year ∨ 400 ∣ year) := by
  simp [isLeap, Nat.dvd_iff_mod_eq_zero]

theorem daysBefore_succ {year : Nat} (hyear : 1 ≤ year) :
    daysBefore (year + 1) = daysBefore year + if isLeap year then 366 else 365 := by
  obtain ⟨past, rfl⟩ : ∃ past, year = past + 1 := ⟨year - 1, by omega⟩
  have hcenturies : past / 100 ≤ past / 4 := Nat.div_le_div_left (by decide) (by decide)
  have h100 : 100 ∣ past + 1 → 4 ∣ past + 1 := fun h ↦ Nat.dvd_trans (by decide) h
  have h400 : 400 ∣ past + 1 → 100 ∣ past + 1 := fun h ↦ Nat.dvd_trans (by decide) h
  simp only [daysBefore, Nat.add_sub_cancel, Nat.succ_div, isLeap_iff]
  generalize past / 4 = fours at *
  generalize past / 100 = centuries at *
  generalize past / 400 = cycles
  by_cases hfour : 4 ∣ past + 1
  · by_cases hcentury : 100 ∣ past + 1
    · by_cases hcycle : 400 ∣ past + 1
      · simp only [hfour, hcentury, hcycle, not_true, or_true, and_true, if_true]
        omega
      · simp only [hfour, hcentury, hcycle, not_true, or_self, and_false, if_true, if_false]
        omega
    · have hcycle := mt h400 hcentury
      simp only [hfour, hcentury, hcycle, not_false_eq_true, true_or, and_true, if_true, if_false]
      omega
  · have hcentury := mt h100 hfour
    have hcycle := mt h400 hcentury
    simp only [hfour, hcentury, hcycle, false_and, if_false]
    omega

theorem daysBefore_mono {year later : Nat} (h : year ≤ later) :
    daysBefore year ≤ daysBefore later := by
  induction later, h using Nat.le_induction with
  | base => exact le_rfl
  | succ later _ ih =>
    cases later with
    | zero => exact ih
    | succ past =>
      rw [daysBefore_succ (Nat.le_add_left 1 past)]
      exact ih.trans (Nat.le_add_right _ _)

/-- The days from a month on, where so many months follow it. -/
def daysFrom (year : Nat) : (fuel month : Nat) → Nat
  | 0, month => monthDays year month
  | fuel + 1, month => monthDays year month + daysFrom year fuel (month + 1)

theorem daysFrom_first (year : Nat) : daysFrom year 11 1 = if isLeap year then 366 else 365 := by
  simp only [daysFrom, monthDays]
  cases isLeap year <;> rfl

theorem monthAndDay_spec (year fuel month day : Nat) (h : day < daysFrom year fuel month) :
    let found := monthAndDay year fuel month day
    month ≤ found.1 ∧ found.1 ≤ month + fuel ∧ 1 ≤ found.2 ∧
      found.2 ≤ monthDays year found.1 := by
  induction fuel generalizing month day with
  | zero => exact ⟨le_rfl, le_rfl, Nat.le_add_left 1 day, h⟩
  | succ fuel ih =>
    unfold monthAndDay
    split
    · rename_i hday
      exact ⟨le_rfl, Nat.le_add_right _ _, Nat.le_add_left 1 day, hday⟩
    · rename_i hday
      rw [daysFrom] at h
      obtain ⟨hlow, hhigh, hrest⟩ := ih (month + 1) (day - monthDays year month) (by omega)
      exact ⟨by omega, by omega, hrest⟩

/-- The last of so many years that begin on a day or before. -/
theorem lastYear_spec {days guess : Nat} (hguess : daysBefore guess ≤ days) (count : Nat) :
    let year := ((List.range count).map (guess + ·)).foldl
      (fun best year ↦ if daysBefore year ≤ days then year else best) guess
    guess ≤ year ∧ daysBefore year ≤ days ∧
      ∀ later, year < later → later < guess + count → days < daysBefore later := by
  induction count with
  | zero => exact ⟨le_rfl, hguess, fun later h h' ↦ absurd h (Nat.lt_asymm h')⟩
  | succ count ih =>
    simp only [List.range_succ, List.map_append, List.foldl_append, List.map_cons, List.map_nil,
      List.foldl_cons, List.foldl_nil] at ih ⊢
    obtain ⟨hle, hbegins, hlater⟩ := ih
    split
    · rename_i hnext
      exact ⟨Nat.le_add_right _ _, hnext, fun later h h' ↦ absurd h (by omega)⟩
    · rename_i hnext
      refine ⟨hle, hbegins, fun later h h' ↦ ?_⟩
      by_cases hlast : later = guess + count
      · rw [hlast]
        exact Nat.lt_of_not_le hnext
      · exact hlater later h (by omega)

/-- A day lies in a year up to 9999, and in a month of that year. -/
theorem ofDays_spec {days : Nat} (h : days < daysBefore 10000) :
    let date := ofDays days
    (1 ≤ date.1 ∧ date.1 ≤ 9999) ∧ (1 ≤ date.2.1 ∧ date.2.1 ≤ 12) ∧
      1 ≤ date.2.2 ∧ date.2.2 ≤ monthDays date.1 date.2.1 := by
  have hlast : daysBefore 10000 = 3652059 := rfl
  have hguess : daysBefore (days / 366 + 1) ≤ days := by
    simp only [daysBefore]
    omega
  have hover : days < daysBefore (days / 366 + 1 + 40) := by
    simp only [daysBefore]
    omega
  obtain ⟨hfirst, hbegins, hlater⟩ := lastYear_spec hguess 40
  unfold ofDays
  dsimp only at hfirst hbegins hlater ⊢
  generalize ((List.range 40).map (days / 366 + 1 + ·)).foldl
    (fun best year ↦ if daysBefore year ≤ days then year else best) (days / 366 + 1) = year at *
  have hends : days < daysBefore (year + 1) := by
    by_cases hnext : year + 1 < days / 366 + 1 + 40
    · exact hlater _ (Nat.lt_succ_self _) hnext
    · obtain rfl : year = days / 366 + 40 := by
        by_contra hne
        exact absurd hover (Nat.not_lt.mpr ((daysBefore_mono (by omega)).trans hbegins))
      exact hover
  have hyear : year ≤ 9999 := by
    by_contra hlong
    exact absurd h (Nat.not_lt.mpr ((daysBefore_mono (by omega)).trans hbegins))
  rw [daysBefore_succ (by omega), ← daysFrom_first] at hends
  obtain ⟨hlow, hhigh, hday⟩ := monthAndDay_spec year 11 1 (days - daysBefore year) (by omega)
  exact ⟨⟨by omega, hyear⟩, ⟨hlow, hhigh⟩, hday⟩

/-! ### Dates and times -/

section Reading

variable {year month day hour minute second micro : Nat}

/-- A fraction of a second, as it is written. -/
def fraction (micro : Nat) : String := if micro = 0 then "" else s!".{padded 6 micro}"

theorem toList_fraction (hmicro : micro ≠ 0) :
    (fraction micro).toList = '.' :: (padded 6 micro).toList := by
  rw [fraction, if_neg hmicro]
  simp [toString]

/-- A date, as it is written. -/
def dateChars (year month day : Nat) : List Char :=
  (padded 4 year).toList ++ '-' :: ((padded 2 month).toList ++ '-' :: (padded 2 day).toList)

/-- A time, as it is written. -/
def clockChars (hour minute second micro : Nat) : List Char :=
  (padded 2 hour).toList ++ ':' :: ((padded 2 minute).toList ++
    ':' :: ((padded 2 second).toList ++ (fraction micro).toList))

theorem toList_stampText {nanoseconds : Int}
    (h : fields nanoseconds = [year, month, day, hour, minute, second, micro]) :
    (stampText nanoseconds).toList =
      dateChars year month day ++ 'T' :: (clockChars hour minute second micro ++
        "+00:00".toList) := by
  rw [stampText, h]
  simp [dateChars, clockChars, fraction, toString]

theorem ne_of_isDigit {c : Char} (h : isDigit c = true) (mark : Char)
    (hmark : isDigit mark = false) : c ≠ mark := by
  rintro rfl
  rw [h] at hmark
  cases hmark

theorem readDate_written (hyear : year < 10000) (hmonth : month < 100) (hday : day < 100) :
    readDate (dateChars year month day) = some (year, month, day) := by
  have hdays := digits?_padded 2 (by decide) hday []
  have hmonths := digits?_padded 2 (by decide) hmonth ('-' :: (padded 2 day).toList)
  have hweek : ∀ rest, (padded 2 month).toList ++ '-' :: (padded 2 day).toList ≠ 'W' :: rest := by
    intro rest heq
    obtain ⟨c, cs, hcs, hdigit⟩ := padded_eq_cons 2 month
    rw [hcs] at heq
    exact ne_of_isDigit hdigit 'W' rfl (List.cons.inj heq).1
  rw [List.append_nil] at hdays
  unfold readDate
  rw [dateChars, digits?_padded 4 (by decide) hyear]
  generalize (padded 2 month).toList ++ '-' :: (padded 2 day).toList = rest at hmonths hweek
  simp only [Option.bind_eq_bind, Option.bind_some, hmonths, hdays]
  rfl

/-- A part of a clock that a colon follows is read, and the next one after the colon. -/
theorem readParts_part {n left : Nat} (hn : n < 100) (clock : Clock) {apart : Bool}
    (hapart : left = 2 ∨ apart = true) {more : List Char} (hmore : more ≠ []) :
    readParts clock apart (left + 1) ((padded 2 n).toList ++ ':' :: more) =
      readParts (clock.setPart left n) true left more := by
  have hthen : (if left = 2 then ':' == ':' else apart) = true := by
    rcases hapart with rfl | rfl <;> simp
  rw [readParts, digits?_padded 2 (by decide) hn]
  cases more with
  | nil => exact absurd rfl hmore
  | cons c cs =>
    dsimp only [Option.bind_eq_bind, Option.bind_some]
    rw [hthen]
    rfl

theorem readFraction_written (hmicro : micro < 1000000) :
    readFraction (padded 6 micro).toList = some (micro, []) := by
  have hlength : (padded 6 micro).toList.length = 6 := length_padded (by decide) hmicro
  have hover : (padded 6 micro).toList.dropWhile isDigit = [] :=
    List.dropWhile_eq_nil_iff.mpr isDigit_padded
  rw [readFraction, List.take_of_length_le hlength.le, if_pos (List.all_eq_true.mpr isDigit_padded),
    natOf_padded, hlength, hover]
  simp

theorem readParts_written (hhour : hour < 100) (hminute : minute < 100) (hsecond : second < 100)
    (hmicro : micro < 1000000) :
    readParts {} true 3 (clockChars hour minute second micro) =
      some (⟨hour, minute, second, micro⟩, []) := by
  have hne : ∀ {n : Nat} {rest : List Char}, (padded 2 n).toList ++ rest ≠ [] := by
    intro n rest
    obtain ⟨c, cs, hcs, -⟩ := padded_eq_cons 2 n
    rw [hcs]
    exact List.cons_ne_nil _ _
  rw [clockChars, readParts_part hhour _ (.inl rfl) hne, readParts_part hminute _ (.inr rfl) hne,
    readParts, digits?_padded 2 (by decide) hsecond]
  by_cases hzero : micro = 0
  · rw [hzero]
    rfl
  · obtain ⟨c, cs, hcs, -⟩ := padded_eq_cons 6 micro
    have hread := readFraction_written hmicro
    rw [hcs] at hread
    rw [toList_fraction hzero, hcs]
    dsimp only [Option.bind_eq_bind, Option.bind_some]
    rw [if_pos (.inl rfl), readParts, hread]
    rfl

/-- The offset of the zero meridian. -/
theorem readParts_offset : readParts {} true 3 ['0', '0', ':', '0', '0'] = some ({}, []) := by
  have hhour : readParts {} true 3 ['0', '0', ':', '0', '0'] = readParts {} true 2 ['0', '0'] :=
    readParts_part (by decide : 0 < 100) {} (.inl rfl) (List.cons_ne_nil '0' ['0'])
  rw [hhour]
  rw [readParts]
  rfl

/-- Digits and the marks between the parts of a clock. -/
def IsClockChar (c : Char) : Prop := isDigit c = true ∨ c = ':' ∨ c = '.'

theorem isClockChar_fraction : ∀ c ∈ (fraction micro).toList, IsClockChar c := by
  by_cases hzero : micro = 0
  · simp [fraction, hzero]
  · intro c hc
    rw [toList_fraction hzero] at hc
    rcases List.mem_cons.mp hc with rfl | hc
    · exact .inr (.inr rfl)
    · exact .inl (isDigit_padded c hc)

theorem isClockChar_clockChars (hour minute second micro : Nat) :
    ∀ c ∈ clockChars hour minute second micro, IsClockChar c := by
  have hnumber : ∀ {places n : Nat}, ∀ c ∈ (padded places n).toList, IsClockChar c :=
    fun c hc ↦ .inl (isDigit_padded c hc)
  simp only [clockChars, List.forall_mem_append, List.forall_mem_cons]
  exact ⟨hnumber, .inr (.inl rfl), hnumber, .inr (.inl rfl), hnumber, isClockChar_fraction⟩

theorem readTime_written (hhour : hour < 100) (hminute : minute < 100) (hsecond : second < 100)
    (hmicro : micro < 1000000) :
    readTime (clockChars hour minute second micro ++ "+00:00".toList) =
      some (⟨hour, minute, second, micro⟩, 0) := by
  have hread := readParts_written hhour hminute hsecond hmicro
  have hclock := isClockChar_clockChars hour minute second micro
  generalize clockChars hour minute second micro = cs at hread hclock
  have hzone : ∀ c ∈ cs, (!(c == '+' || c == '-' || c == 'Z')) = true := by
    intro c hc
    rcases hclock c hc with h | rfl | rfl
    · simp [ne_of_isDigit h '+' rfl, ne_of_isDigit h '-' rfl, ne_of_isDigit h 'Z' rfl]
    · rfl
    · rfl
  have htake : "+00:00".toList.takeWhile (fun c ↦ !(c == '+' || c == '-' || c == 'Z')) = [] := rfl
  have hdrop : "+00:00".toList.dropWhile (fun c ↦ !(c == '+' || c == '-' || c == 'Z')) =
      ['+', '0', '0', ':', '0', '0'] := rfl
  unfold readTime
  dsimp only
  rw [List.takeWhile_append_of_pos hzone, List.dropWhile_append_of_pos hzone, htake, hdrop,
    List.append_nil, hread]
  simp only [Option.bind_eq_bind, Option.bind_some]
  change (readParts {} true 3 ['0', '0', ':', '0', '0']).bind _ = _
  rw [readParts_offset]
  rfl

/-! ### Moments -/

theorem datePart_written (hyear : year < 10000) (hmonth : month < 100) (hday : day < 100)
    (time : List Char) :
    datePart (dateChars year month day ++ 'T' :: time) = some 10 := by
  have hyears : (padded 4 year).toList.length = 4 := length_padded (by decide) hyear
  have hmonths : (padded 2 month).toList.length = 2 := length_padded (by decide) hmonth
  have hdays : (padded 2 day).toList.length = 2 := length_padded (by decide) hday
  obtain ⟨c, cs, hcs, hdigit⟩ := padded_eq_cons 2 month
  have hweek : c ≠ 'W' := ne_of_isDigit hdigit 'W' rfl
  have hlength : 7 < (dateChars year month day ++ 'T' :: time).length := by
    simp only [dateChars, List.length_append, List.length_cons]
    omega
  have hdash : ((dateChars year month day ++ 'T' :: time)[4]?).getD ' ' = '-' := by
    rw [dateChars, List.append_assoc, List.getElem?_append_right hyears.le, hyears]
    rfl
  have hmonth' : ((dateChars year month day ++ 'T' :: time)[5]?).getD ' ' ≠ 'W' := by
    rw [dateChars, List.append_assoc, List.getElem?_append_right (by omega), hyears, hcs]
    exact hweek
  generalize dateChars year month day ++ 'T' :: time = cs at hlength hdash hmonth'
  unfold datePart
  rw [if_neg (Nat.not_lt.mpr hlength.le), if_neg hlength.ne']
  dsimp only
  rw [if_pos hdash, if_neg hmonth']

/-- The date and the time are separated by one character. -/
theorem dropMark_ascii {c : Char} (hc : c.toNat < 0x80) (cs : List Char) :
    dropMark (c :: cs) = cs := by
  rw [dropMark]
  simp [hc]

theorem ascii_of_isDigit {c : Char} (h : isDigit c = true) : c.toNat < 0x80 := by
  have hle : c.toNat ≤ 57 := (by simpa [isDigit] using h : '0' ≤ c ∧ c ≤ '9').2
  omega

/-- A moment that is written is read as what it is, a date and a time without an offset. -/
theorem checkStamp_written {text : String} (hyear : 1 ≤ year ∧ year ≤ 9999)
    (hmonth : 1 ≤ month ∧ month ≤ 12) (hday : 1 ≤ day ∧ day ≤ monthDays year month)
    (hhour : hour < 24) (hminute : minute < 60) (hsecond : second < 60) (hmicro : micro < 1000000)
    (htext : text.toList = dateChars year month day ++
      'T' :: (clockChars hour minute second micro ++ "+00:00".toList)) :
    checkStamp text = .ok () := by
  have hday' : day < 100 := by
    have : monthDays year month ≤ 31 := by
      unfold monthDays
      split_ifs <;> decide
    omega
  have hascii : ∀ c ∈ text.toList, c.toNat < 0x80 := by
    have hnumber : ∀ {places n : Nat}, ∀ c ∈ (padded places n).toList, c.toNat < 0x80 :=
      fun c hc ↦ ascii_of_isDigit (isDigit_padded c hc)
    have hclock : ∀ c ∈ clockChars hour minute second micro, c.toNat < 0x80 := by
      intro c hc
      rcases isClockChar_clockChars _ _ _ _ c hc with h | rfl | rfl
      · exact ascii_of_isDigit h
      · decide
      · decide
    simp only [htext, dateChars, List.forall_mem_append, List.forall_mem_cons]
    exact ⟨⟨hnumber, by decide, hnumber, by decide, hnumber⟩, by decide, hclock,
      Text.forall_mem_of_all (by decide)⟩
  have hdate : (dateChars year month day).length = 10 := by
    simp only [dateChars, List.length_append, List.length_cons, length_padded (by decide : 0 < 4)
      (by omega : year < 10 ^ 4), length_padded (by decide : 0 < 2) (by omega : month < 10 ^ 2),
      length_padded (by decide : 0 < 2) (by omega : day < 10 ^ 2)]
  unfold checkStamp
  dsimp only
  rw [Text.map_encode hascii, htext, datePart_written (by omega) (by omega) hday']
  simp only [Option.bind_eq_bind, Option.bind_some]
  rw [List.take_left' hdate, List.drop_left' hdate,
    readDate_written (by omega) (by omega) hday', dropMark_ascii (by decide),
    readTime_written (by omega) (by omega) (by omega) hmicro]
  rw [Option.bind_some, if_pos (by rw [List.length_append, hdate, List.length_cons]; omega)]
  simp only [Option.bind_some, Option.pure_def, check]
  rw [if_neg (by decide), if_neg (by omega), if_neg (by omega), if_neg (by omega),
    if_neg (by omega), if_neg (by omega), if_neg (by omega)]

end Reading

/-- The end of the year 9999, in nanoseconds since 1970. -/
def lastMoment : Int := 253402300800000000000

theorem checkStamp_stampText {nanoseconds : Int} (h : nanoseconds < lastMoment) :
    checkStamp (stampText nanoseconds) = .ok () := by
  have hmicros : nanoseconds.toNat / 1000 < 253402300800000000 := by
    unfold lastMoment at h
    omega
  have hdays : daysBefore 1970 + nanoseconds.toNat / 1000 / 1000000 / 86400 < daysBefore 10000 := by
    have h1970 : daysBefore 1970 = 719162 := rfl
    have h10000 : daysBefore 10000 = 3652059 := rfl
    omega
  obtain ⟨hyear, hmonth, hday⟩ := ofDays_spec hdays
  exact checkStamp_written hyear hmonth hday (Nat.mod_lt _ (by decide)) (Nat.mod_lt _ (by decide))
    (Nat.mod_lt _ (by decide)) (Nat.mod_lt _ (by decide)) (toList_stampText rfl)

end Remedy.Calendar
