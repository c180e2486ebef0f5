import Mathlib.Algebra.Group.Nat.Defs
import Mathlib.Data.List.Induction
import Mathlib.Data.List.TakeWhile
import Mathlib.Tactic.Common
import PushOperator.Timestamp

/-!
# Moments that are read back

A moment that was read is in the calendar, and one that is in the calendar is read back from its
text, up to the fraction of a second that the text leaves out. The calendar is counted from March,
so that a leap day is the last day of its year.
-/

namespace PushOperator

namespace Timestamp

/-! ## The calendar -/

/-- The years that have begun by a day of an era of 400 years. -/
def yearOfEra (day : Nat) : Nat := (day - day / 1460 + day / 36524 - day / 146096) / 365

/-- The day of an era that a year begins on. -/
def firstDay (year : Nat) : Nat := 365 * year + year / 4 - year / 100

theorem yearOfEra_mono {day day' : Nat} (h : day ≤ day') : yearOfEra day ≤ yearOfEra day' := by
  have hcenturies (d : Nat) : d / 146096 = d / 36524 / 4 := by rw [Nat.div_div_eq_div_mul]
  have hcentury : day / 36524 ≤ day' / 36524 := Nat.div_le_div_right h
  unfold yearOfEra
  rw [hcenturies, hcenturies]
  apply Nat.div_le_div_right
  have hleap : day - day / 1460 ≤ day' - day' / 1460 := by omega
  omega

/-- Every year of an era begins on its first day and ends on the day before the next one. -/
theorem yearOfEra_bounds : ∀ year : Fin 400,
    yearOfEra (firstDay year) = year ∧ yearOfEra (firstDay (year + 1) - 1) = year := by
  decide +kernel

/-- A day is in its year, which has 366 days at most. -/
theorem firstDay_le {day : Nat} (h : day < 146097) : yearOfEra day < 400 ∧
    firstDay (yearOfEra day) ≤ day ∧ day < firstDay (yearOfEra day) + 367 := by
  have hyear : yearOfEra day < 400 := by
    have hmono : yearOfEra day ≤ yearOfEra 146096 := yearOfEra_mono (by omega)
    have hlast : yearOfEra 146096 = 399 := by decide
    omega
  refine ⟨hyear, ?_, ?_⟩
  · -- A day before the first one of its year would be in the year before that.
    by_contra hlt
    cases hy : yearOfEra day with
    | zero => simp [hy, firstDay] at hlt
    | succ y =>
      rw [hy] at hlt
      have hend : yearOfEra (firstDay (y + 1) - 1) = y := (yearOfEra_bounds ⟨y, by omega⟩).2
      have hmono : yearOfEra day ≤ yearOfEra (firstDay (y + 1) - 1) := yearOfEra_mono (by omega)
      omega
  · -- A day so late would be in the next year, if there is one in the era.
    by_contra hge
    by_cases hnext : yearOfEra day + 1 < 400
    · have hstart : yearOfEra (firstDay (yearOfEra day + 1)) = yearOfEra day + 1 :=
        (yearOfEra_bounds ⟨yearOfEra day + 1, hnext⟩).1
      have hlate : firstDay (yearOfEra day + 1) ≤ day := by
        unfold firstDay at hge ⊢
        omega
      have hmono := yearOfEra_mono hlate
      omega
    · unfold firstDay at hge
      omega

/-- Every number of days is in some era, and there in some year. -/
theorem exists_dayOfYear (days : Int) : ∃ (era : Int) (year dayOfYear : Nat),
    year < 400 ∧ dayOfYear < 367 ∧ yearOfEra (firstDay year + dayOfYear) = year ∧
      days = era * 146097 + (firstDay year + dayOfYear : Nat) ∧
      firstDay year + dayOfYear < 146097 := by
  have hnonneg : 0 ≤ days.fmod 146097 := Int.fmod_nonneg_of_pos _ (by decide)
  have hlt : days.fmod 146097 < 146097 := Int.fmod_lt_of_pos _ (by decide)
  have hsum : days.fmod 146097 + 146097 * days.fdiv 146097 = days :=
    Int.fmod_add_mul_fdiv days 146097
  obtain ⟨day, hday⟩ := Int.eq_ofNat_of_zero_le hnonneg
  have hera : day < 146097 := by omega
  obtain ⟨hyear, hfirst, hlast⟩ := firstDay_le hera
  have hsplit : firstDay (yearOfEra day) + (day - firstDay (yearOfEra day)) = day := by omega
  refine ⟨days.fdiv 146097, yearOfEra day, day - firstDay (yearOfEra day), hyear, by omega, ?_⟩
  rw [hsplit]
  exact ⟨rfl, by omega, hera⟩

/-- A date from its era, its year in the era and its day in the year, both of which begin in
March. -/
theorem dateOfDays_era (era : Int) {year dayOfYear : Nat}
    (h : yearOfEra (firstDay year + dayOfYear) = year)
    (hera : firstDay year + dayOfYear < 146097) :
    dateOfDays (era * 146097 + (firstDay year + dayOfYear : Nat)) =
      let m := (5 * dayOfYear + 2) / 153
      let month := if m < 10 then m + 3 else m - 9
      (era * 400 + year + (if month ≤ 2 then 1 else 0), month,
        dayOfYear - (153 * m + 2) / 5 + 1) := by
  have hdiv : (era * 146097 + (firstDay year + dayOfYear : Nat)).fdiv 146097 = era := by
    rw [Int.fdiv_eq_ediv_of_nonneg _ (by decide)]
    omega
  have hday : (era * 146097 + (firstDay year + dayOfYear : Nat) - era * 146097).toNat =
      firstDay year + dayOfYear := by omega
  unfold dateOfDays
  simp only [hdiv, hday]
  rw [← yearOfEra, h, ← firstDay, Nat.add_sub_cancel_left]

/-- A number of days is the number of days to its date. -/
theorem daysOfDate_dateOfDays (days : Int) :
    daysOfDate (dateOfDays days).1 (dateOfDays days).2.1 (dateOfDays days).2.2 = days := by
  obtain ⟨era, year, dayOfYear, hyear, hdayOfYear, hofEra, rfl, hera⟩ := exists_dayOfYear days
  rw [dateOfDays_era era hofEra hera]
  have hmonth : (5 * dayOfYear + 2) / 153 < 12 := by omega
  have hstart : (153 * ((5 * dayOfYear + 2) / 153) + 2) / 5 ≤ dayOfYear := by omega
  generalize (5 * dayOfYear + 2) / 153 = m at hmonth hstart
  have hcalendar (y m' : Int) (hy : y = era * 400 + year) (hm : m' = m) :
      365 * y + y / 4 - y / 100 + y / 400 + (153 * m' + 2) / 5 +
        ((dayOfYear - (153 * m + 2) / 5 + 1 : Nat) : Int) - 1 =
      era * 146097 + (firstDay year + dayOfYear : Nat) := by
    subst hy hm
    unfold firstDay
    omega
  unfold daysOfDate
  simp only [Int.fdiv_eq_ediv_of_nonneg _ (show (0 : Int) ≤ 4 by decide),
    Int.fdiv_eq_ediv_of_nonneg _ (show (0 : Int) ≤ 100 by decide),
    Int.fdiv_eq_ediv_of_nonneg _ (show (0 : Int) ≤ 400 by decide),
    Int.fdiv_eq_ediv_of_nonneg _ (show (0 : Int) ≤ 5 by decide)]
  -- The year of the calendar begins in January, two months before the year counted here ends.
  by_cases hspring : m < 10
  · simp only [if_pos hspring]
    rw [if_neg (by omega), if_neg (by omega)]
    exact hcalendar _ _ (by omega) (by omega)
  · simp only [if_neg hspring]
    rw [if_pos (by omega), if_pos (by omega)]
    exact hcalendar _ _ (by omega) (by omega)

/-- The date of a number of days is in the calendar if its year is. -/
theorem isDate_dateOfDays {days : Int} (h : isYear (dateOfDays days).1 = true) :
    isDate (dateOfDays days).1 (dateOfDays days).2.1 (dateOfDays days).2.2 = true := by
  have hbounds : 1 ≤ (dateOfDays days).2.1 ∧ (dateOfDays days).2.1 ≤ 12 ∧
      1 ≤ (dateOfDays days).2.2 ∧ (dateOfDays days).2.2 ≤ 31 := by
    obtain ⟨era, year, dayOfYear, hyear, hdayOfYear, hofEra, rfl, hera⟩ := exists_dayOfYear days
    rw [dateOfDays_era era hofEra hera]
    dsimp only
    split <;> omega
  unfold isDate
  rw [daysOfDate_dateOfDays]
  simp [h, hbounds]

/-! ## Numbers -/

theorem toList_padded (width n : Nat) : (padded width n).toList =
    List.replicate (width - (Nat.toDigits 10 n).length) '0' ++ Nat.toDigits 10 n := by
  unfold padded
  rw [Nat.toString_eq_ofList_toDigits]
  simp

theorem isDigit_padded {width n : Nat} : ∀ c ∈ (padded width n).toList, c.isDigit = true := by
  intro c hmem
  rw [toList_padded, List.mem_append] at hmem
  rcases hmem with hzero | hdigit
  · rw [List.eq_of_mem_replicate hzero]
    decide
  · exact Nat.isDigit_of_mem_toDigits (by decide) (by decide) hdigit

theorem foldl_digits (digits : List Char) (n : Nat) :
    digits.foldl (fun n c => n * 10 + (c.toNat - 48)) n = Nat.ofDigitChars 10 digits n := by
  rw [Nat.ofDigitChars_eq_foldl]
  simp only [Nat.mul_comm 10]
  rfl

/-- The digits of a number are read as that number. -/
theorem ofDigitChars_padded (width n : Nat) :
    Nat.ofDigitChars 10 (padded width n).toList 0 = n := by
  rw [toList_padded, Nat.ofDigitChars_append, Nat.ofDigitChars_replicate_zero, Nat.mul_zero,
    Nat.ofDigitChars_ten_toDigits]

theorem length_padded {width n : Nat} (hwidth : 0 < width) (h : n < 10 ^ width) :
    (padded width n).toList.length = width := by
  have hdigits := (Nat.length_toDigits_le_iff (by decide) hwidth).2 h
  rw [toList_padded, List.length_append, List.length_replicate]
  omega

/-- The digits of a number, the first of them apart. -/
theorem exists_padded_cons (width n : Nat) :
    ∃ c rest, (padded width n).toList = c :: rest ∧ c.isDigit = true := by
  cases hdigits : (padded width n).toList with
  | nil =>
    rw [toList_padded] at hdigits
    exact absurd (List.append_eq_nil_iff.1 hdigits).2 Nat.toDigits_ne_nil
  | cons c rest => exact ⟨c, rest, rfl, isDigit_padded c (hdigits ▸ List.mem_cons_self)⟩

theorem not_blank_of_isDigit {c : Char} (h : c.isDigit = true) :
    CharSet.blank.contains c = false := by
  have hcode : 48 ≤ c.toNat ∧ c.toNat ≤ 57 := by
    simp only [Char.isDigit, Bool.and_eq_true, decide_eq_true_eq] at h
    exact h
  have hall : ∀ n : Fin 10, CharSet.blank.contains (Char.ofNat (48 + n)) = false := by decide
  obtain ⟨n, hn⟩ := Nat.exists_eq_add_of_le hcode.1
  have := hall ⟨n, by omega⟩
  rwa [← hn, Char.ofNat_toNat] at this

/-! ## Reading what was written -/

/-- A reader goes on where the one before it has stopped. -/
theorem run_bind_of {α β : Type} {reader : Reader α} {next : α → Reader β} {s s' : List Char}
    {a : α} (h : reader.run s = some (a, s')) : (reader >>= next).run s = (next a).run s' := by
  rw [StateT.run_bind, h]
  rfl

theorem skipBlank_run {c : Char} {rest : List Char} (h : CharSet.blank.contains c = false) :
    skipBlank.run (c :: rest) = some ((), c :: rest) := by
  have htrim : Text.trimStart (c :: rest) = c :: rest := by
    unfold Text.trimStart
    rw [List.dropWhile_cons, h]
    rfl
  show some ((), Text.trimStart (c :: rest)) = _
  rw [htrim]

theorem take_run (c : Char) (rest : List Char) : (take c).run (c :: rest) = some ((), rest) := by
  simp [take]

/-- A number is read up to the first character that is no digit. -/
theorem number_run {most width n : Nat} {c : Char} {rest : List Char}
    (hmost : (padded width n).toList.length ≤ most) (hc : c.isDigit = false) :
    (number most).run ((padded width n).toList ++ c :: rest) = some (n, c :: rest) := by
  have htake : (((padded width n).toList ++ c :: rest).take most).takeWhile Char.isDigit =
      (padded width n).toList := by
    rw [List.take_append, List.take_of_length_le hmost,
      List.takeWhile_append_of_pos isDigit_padded]
    cases most - (padded width n).toList.length <;> simp [hc]
  have hne : (padded width n).toList.isEmpty = false := by
    obtain ⟨first, others, hfirst, -⟩ := exists_padded_cons width n
    rw [hfirst]
    rfl
  have hvalue : (padded width n).toList.foldl (fun n c => n * 10 + (c.toNat - 48)) 0 = n := by
    rw [foldl_digits, ofDigitChars_padded]
  unfold number
  rw [run_bind_of (StateT.run_get _)]
  simp [htake, hne, hvalue]

theorem shortNumber_run {n : Nat} {c : Char} {rest : List Char} (hn : n < 100)
    (hc : c.isDigit = false) :
    shortNumber.run ((padded 2 n).toList ++ c :: rest) = some (n, c :: rest) := by
  obtain ⟨first, others, hfirst, hdigit⟩ := exists_padded_cons 2 n
  have hblank : skipBlank.run ((padded 2 n).toList ++ c :: rest) =
      some ((), (padded 2 n).toList ++ c :: rest) := by
    rw [hfirst]
    exact skipBlank_run (not_blank_of_isDigit hdigit)
  unfold shortNumber
  rw [run_bind_of hblank]
  exact number_run (Nat.le_of_eq (length_padded (by decide) hn)) hc

theorem yearNumber_minus {rest s : List Char} {n : Nat}
    (h : (number ('-' :: rest).length).run rest = some (n, s)) :
    yearNumber.run ('-' :: rest) = some (-(n : Int), s) := by
  unfold yearNumber
  rw [run_bind_of (skipBlank_run (by decide)), run_bind_of (StateT.run_get _)]
  simp only
  rw [run_bind_of (StateT.run_set _ _), run_bind_of h]
  rfl

theorem yearNumber_plus {rest s : List Char} {n : Nat}
    (h : (number ('+' :: rest).length).run rest = some (n, s)) :
    yearNumber.run ('+' :: rest) = some ((n : Int), s) := by
  unfold yearNumber
  rw [run_bind_of (skipBlank_run (by decide)), run_bind_of (StateT.run_get _)]
  simp only
  rw [run_bind_of (StateT.run_set _ _), run_bind_of h]
  rfl

theorem yearNumber_digit {c : Char} {rest s : List Char} {n : Nat} (hc : c.isDigit = true)
    (h : (number 4).run (c :: rest) = some (n, s)) :
    yearNumber.run (c :: rest) = some ((n : Int), s) := by
  unfold yearNumber
  rw [run_bind_of (skipBlank_run (not_blank_of_isDigit hc)), run_bind_of (StateT.run_get _)]
  split
  · next heq =>
    cases heq
    cases hc
  · next heq =>
    cases heq
    cases hc
  · rw [run_bind_of h]
    rfl

/-- A year is read up to the dash after it. -/
theorem yearNumber_run (year : Int) (rest : List Char) :
    yearNumber.run ((yearText year).toList ++ '-' :: rest) = some (year, '-' :: rest) := by
  have hsigned (sign : Char) :
      (number (sign :: ((padded 4 year.natAbs).toList ++ '-' :: rest)).length).run
        ((padded 4 year.natAbs).toList ++ '-' :: rest) = some (year.natAbs, '-' :: rest) :=
    number_run (by simp; omega) (by decide)
  unfold yearText
  split
  · next hneg =>
    have hyear : -(year.natAbs : Int) = year := by omega
    have hsign : "-".toList = ['-'] := by decide
    rw [String.toList_append, hsign, List.append_assoc, List.singleton_append,
      yearNumber_minus (hsigned '-'), hyear]
  · split
    · next hlate =>
      have hyear : (year.natAbs : Int) = year := by omega
      have hsign : "+".toList = ['+'] := by decide
      rw [String.toList_append, hsign, List.append_assoc, List.singleton_append,
        yearNumber_plus (hsigned '+'), hyear]
    · next hnonneg hlate =>
      have hyear : (year.natAbs : Int) = year := by omega
      obtain ⟨first, others, hfirst, hdigit⟩ := exists_padded_cons 4 year.natAbs
      have hnumber : (number 4).run ((padded 4 year.natAbs).toList ++ '-' :: rest) =
          some (year.natAbs, '-' :: rest) :=
        number_run (Nat.le_of_eq (length_padded (by decide) (by omega))) (by decide)
      rw [hfirst, List.cons_append] at hnumber ⊢
      rw [yearNumber_digit hdigit hnumber, hyear]

/-! ## Fractions and offsets -/

theorem fraction_none {c : Char} {rest : List Char} (hc : c ≠ '.') :
    fraction.run (c :: rest) = some (0, c :: rest) := by
  unfold fraction
  rw [run_bind_of (StateT.run_get _)]
  split
  · next heq =>
    cases heq
    exact absurd rfl hc
  · rfl

theorem fraction_micro {n : Nat} {c : Char} {rest : List Char} (hn : n < 1000000)
    (hc : c.isDigit = false) :
    fraction.run ('.' :: ((padded 6 n).toList ++ c :: rest)) = some (n * 1000, c :: rest) := by
  have hlength : (padded 6 n).toList.length = 6 := length_padded (by decide) hn
  have hwhile : ((padded 6 n).toList ++ c :: rest).takeWhile Char.isDigit =
      (padded 6 n).toList := by
    rw [List.takeWhile_append_of_pos isDigit_padded, List.takeWhile_cons, hc]
    simp
  have hdrop : ((padded 6 n).toList ++ c :: rest).dropWhile Char.isDigit = c :: rest := by
    rw [List.dropWhile_append_of_pos isDigit_padded, List.dropWhile_cons, hc]
    rfl
  have hne : (padded 6 n).toList.isEmpty = false := by
    obtain ⟨first, others, hfirst, -⟩ := exists_padded_cons 6 n
    rw [hfirst]
    rfl
  have htake : ((padded 6 n).toList ++ List.replicate 9 '0').take 9 =
      (padded 6 n).toList ++ List.replicate 3 '0' := by
    rw [List.take_append, List.take_of_length_le (by omega), hlength]
    simp
  have hvalue : ((padded 6 n).toList ++ List.replicate 3 '0').foldl
      (fun n c => n * 10 + (c.toNat - 48)) 0 = n * 1000 := by
    rw [foldl_digits, Nat.ofDigitChars_append, ofDigitChars_padded,
      Nat.ofDigitChars_replicate_zero, Nat.mul_comm]
  unfold fraction
  rw [run_bind_of (StateT.run_get _)]
  simp only [hwhile, hdrop, htake]
  rw [hvalue, hne]
  rfl

theorem offset_universal : offset.run ['Z'] = some (0, []) := by
  decide

/-! ## Moments -/

/-- A moment of the calendar. -/
structure Valid (t : Timestamp) : Prop where
  date : isDate t.year t.month t.day = true
  hour : t.hour < 24
  minute : t.minute < 60
  second : t.second < 61
  nanosecond : t.nanosecond < 1000000000

theorem toList_civil (t : Timestamp) (s : List Char) : t.civil.toList ++ s =
    (yearText t.year).toList ++ '-' :: ((padded 2 t.month).toList ++ '-' ::
      ((padded 2 t.day).toList ++ 'T' :: ((padded 2 t.hour).toList ++ ':' ::
        ((padded 2 t.minute).toList ++ ':' :: ((padded 2 t.second).toList ++ s))))) := by
  simp [civil]

theorem moment_run {t : Timestamp} (ht : t.Valid) {c : Char} {rest : List Char} {ns : Nat}
    (hc : c.isDigit = false) (hfraction : fraction.run (c :: rest) = some (ns, ['Z'])) :
    moment.run (t.civil.toList ++ c :: rest) = some ({ t with nanosecond := ns }, []) := by
  have hdate := ht.date
  have hhour := ht.hour
  have hminute := ht.minute
  have hsecond := ht.second
  have hcalendar : t.month ≤ 12 ∧ t.day ≤ 31 ∧ isYear t.year = true ∧
      dateOfDays (daysOfDate t.year t.month t.day) = (t.year, t.month, t.day) := by
    simp only [isDate, Bool.and_eq_true, decide_eq_true_eq, beq_iff_eq] at hdate
    obtain ⟨⟨⟨⟨⟨hyear, -⟩, hmonth⟩, -⟩, hday⟩, hdays⟩ := hdate
    exact ⟨hmonth, hday, hyear, hdays⟩
  obtain ⟨hmonth, hday, hyear, hdays⟩ := hcalendar
  rw [toList_civil]
  unfold moment
  rw [run_bind_of (yearNumber_run _ _), run_bind_of (skipBlank_run (by decide)),
    run_bind_of (take_run _ _), run_bind_of (shortNumber_run (by omega) (by decide)),
    run_bind_of (skipBlank_run (by decide)), run_bind_of (take_run _ _),
    run_bind_of (shortNumber_run (by omega) (by decide)), run_bind_of (StateT.run_get _)]
  simp only
  rw [run_bind_of (StateT.run_set _ _), run_bind_of (shortNumber_run (by omega) (by decide)),
    run_bind_of (skipBlank_run (by decide)), run_bind_of (take_run _ _),
    run_bind_of (shortNumber_run (by omega) (by decide)),
    run_bind_of (skipBlank_run (by decide)), run_bind_of (take_run _ _),
    run_bind_of (shortNumber_run (by omega) hc), run_bind_of hfraction,
    run_bind_of offset_universal]
  have hguard : (!isDate t.year t.month t.day || decide (24 ≤ t.hour) || decide (60 ≤ t.minute) ||
      decide (61 ≤ t.second)) = false := by
    rw [hdate]
    simp
    omega
  have hdate' : (daysOfDate t.year t.month t.day * 1440 + t.hour * 60 + t.minute).fdiv 1440 =
      daysOfDate t.year t.month t.day := by
    rw [Int.fdiv_eq_ediv_of_nonneg _ (by decide)]
    omega
  have htime : ((daysOfDate t.year t.month t.day * 1440 + t.hour * 60 + t.minute).fmod
      1440).toNat = t.hour * 60 + t.minute := by
    rw [Int.fmod_eq_emod_of_nonneg _ (by decide)]
    omega
  have hclock : (t.hour * 60 + t.minute) / 60 = t.hour ∧
      (t.hour * 60 + t.minute) % 60 = t.minute := by omega
  simp [hguard, hdate', htime, hdays, hyear, hclock]

/-! ## What is read is in the calendar -/

/-- What a reader takes satisfies `P`. -/
def Ensures {α : Type} (reader : Reader α) (P : α → Prop) : Prop :=
  ∀ s a s', reader.run s = some (a, s') → P a

theorem Ensures.bind {α β : Type} {reader : Reader α} {next : α → Reader β} {P : α → Prop}
    {Q : β → Prop} (h : Ensures reader P) (hnext : ∀ a, P a → Ensures (next a) Q) :
    Ensures (reader >>= next) Q := by
  intro s b s'' hrun
  rw [StateT.run_bind] at hrun
  obtain ⟨⟨a, s'⟩, hreader, hrest⟩ := Option.bind_eq_some_iff.1 hrun
  exact hnext a (h s a s' hreader) s' b s'' hrest

theorem Ensures.skip {α β : Type} {reader : Reader α} {next : α → Reader β} {Q : β → Prop}
    (hnext : ∀ a, Ensures (next a) Q) : Ensures (reader >>= next) Q :=
  Ensures.bind (P := fun _ => True) (fun _ _ _ _ => trivial) fun a _ => hnext a

theorem ensures_failure {α : Type} {P : α → Prop} : Ensures (failure : Reader α) P := by
  intro s a s' hrun
  cases hrun

theorem ensures_pure {α : Type} {P : α → Prop} {a : α} (h : P a) :
    Ensures (pure a : Reader α) P := by
  intro s a' s' hrun
  cases hrun
  exact h

theorem ensures_failure_bind {α β : Type} {next : α → Reader β} {Q : β → Prop} :
    Ensures (failure >>= next) Q :=
  Ensures.bind (P := fun _ => False) ensures_failure fun _ h => h.elim

theorem ofDigitChars_lt {digits : List Char} (h : ∀ c ∈ digits, c.isDigit = true) :
    Nat.ofDigitChars 10 digits 0 < 10 ^ digits.length := by
  induction digits using List.reverseRecOn with
  | nil => decide
  | append_singleton digits c ih =>
    have hothers := ih fun d hmem => h d (List.mem_append_left _ hmem)
    have hc := h c (by simp)
    simp only [Char.isDigit, Bool.and_eq_true, decide_eq_true_eq] at hc
    have hlast : c.toNat ≤ 57 := hc.2
    rw [Nat.ofDigitChars_append, List.length_append, List.length_singleton, Nat.pow_succ,
      Nat.ofDigitChars_cons, Nat.ofDigitChars_nil]
    have hzero : '0'.toNat = 48 := rfl
    omega

theorem fraction_ensures : Ensures fraction (· < 1000000000) := by
  unfold fraction
  refine Ensures.skip fun s => ?_
  split
  · next rest =>
    simp only
    split
    · exact ensures_failure_bind
    · refine Ensures.skip fun _ => ensures_pure ?_
      rw [foldl_digits]
      have hlength : ((rest.takeWhile Char.isDigit ++ List.replicate 9 '0').take 9).length = 9 := by
        simp
      have hdigits : ∀ c ∈ (rest.takeWhile Char.isDigit ++ List.replicate 9 '0').take 9,
          c.isDigit = true := by
        intro c hmem
        rcases List.mem_append.1 (List.mem_of_mem_take hmem) with hdigit | hzero
        · exact List.mem_takeWhile_imp hdigit
        · rw [List.eq_of_mem_replicate hzero]
          decide
      have hlt := ofDigitChars_lt hdigits
      rwa [hlength] at hlt
  · exact ensures_pure (by decide)

/-- A number of minutes makes a moment of the calendar if its year is in the calendar. -/
theorem valid_of_minutes {minutes : Int} {second nanosecond : Nat}
    (hyear : isYear (dateOfDays (minutes.fdiv 1440)).1 = true) (hsecond : second < 61)
    (hnanosecond : nanosecond < 1000000000) :
    Valid {
      year := (dateOfDays (minutes.fdiv 1440)).1
      month := (dateOfDays (minutes.fdiv 1440)).2.1
      day := (dateOfDays (minutes.fdiv 1440)).2.2
      hour := (minutes.fmod 1440).toNat / 60
      minute := (minutes.fmod 1440).toNat % 60
      second, nanosecond } where
  date := isDate_dateOfDays hyear
  hour := by
    have hlt : minutes.fmod 1440 < 1440 := Int.fmod_lt_of_pos _ (by decide)
    dsimp only
    omega
  minute := Nat.mod_lt _ (by decide)
  second := hsecond
  nanosecond := hnanosecond

theorem moment_ensures : Ensures moment Valid := by
  unfold moment
  refine Ensures.skip fun year => Ensures.skip fun _ => Ensures.skip fun _ =>
    Ensures.skip fun month => Ensures.skip fun _ => Ensures.skip fun _ =>
    Ensures.skip fun day => Ensures.skip fun s => ?_
  simp only
  -- What stands between the date and the time makes no difference to what follows.
  split <;> refine Ensures.skip fun _ => Ensures.skip fun hour => Ensures.skip fun _ =>
    Ensures.skip fun _ => Ensures.skip fun minute => Ensures.skip fun _ => Ensures.skip fun _ =>
    Ensures.skip fun second => fraction_ensures.bind fun nanosecond hnanosecond =>
    Ensures.skip fun offset => ?_
  all_goals
    split
    · exact ensures_failure_bind
    · next hguard =>
      split
      · exact ensures_failure_bind
      · next hyear =>
        simp only [Bool.or_eq_true, decide_eq_true_eq, not_or, Nat.not_le] at hguard
        simp only [Bool.not_eq_true', Bool.not_eq_false] at hyear
        exact ensures_pure (valid_of_minutes hyear hguard.2 hnanosecond)

/-! ## Texts of moments -/

/-- What is read is a moment of the calendar. -/
theorem valid_of_parse? {s : String} {t : Timestamp} (h : parse? s = some t) : t.Valid := by
  unfold parse? at h
  obtain ⟨⟨t', rest⟩, hmoment, hrest⟩ := Option.bind_eq_some_iff.1 h
  simp only at hrest
  split at hrest
  · cases hrest
    exact moment_ensures _ _ _ hmoment
  · cases hrest

theorem parse?_of_moment {s : String} {t : Timestamp} (h : moment.run s.toList = some (t, [])) :
    parse? s = some t := by
  unfold parse?
  rw [h]
  rfl

/-- A moment is read back from its text, without the fraction of a second. -/
theorem parse?_toSeconds {t : Timestamp} (h : t.Valid) :
    parse? t.toSeconds = some { t with nanosecond := 0 } := by
  apply parse?_of_moment
  have htext : t.toSeconds.toList = t.civil.toList ++ ['Z'] := by
    unfold toSeconds
    rw [String.toList_append]
    rfl
  rw [htext]
  exact moment_run h (by decide) (fraction_none (by decide))

/-- A moment is read back from its text, without what is left of the fraction after the
microseconds. -/
theorem parse?_toMicroseconds {t : Timestamp} (h : t.Valid) :
    parse? t.toMicroseconds = some { t with nanosecond := t.nanosecond / 1000 * 1000 } := by
  have hmicro : t.nanosecond / 1000 < 1000000 := by
    have := h.nanosecond
    omega
  apply parse?_of_moment
  have htext : t.toMicroseconds.toList =
      t.civil.toList ++ '.' :: ((padded 6 (t.nanosecond / 1000)).toList ++ ['Z']) := by
    simp [toMicroseconds]
  rw [htext]
  exact moment_run h (by decide) (fraction_micro hmicro (by decide))

end Timestamp

end PushOperator
