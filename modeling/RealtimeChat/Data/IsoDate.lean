import Mathlib.Data.Nat.Find
import Mathlib.Tactic.IntervalCases
import Mathlib.Tactic.Ring
import RealtimeChat.Data.Text

/-! Instants and their ISO text.

An instant is a number of milliseconds since 1970-01-01T00:00:00.000Z.
`toISOString` prints one from then on, and `parse` reads a date-time with a `Z`,
with or without seconds, of any year: four digits, or a sign and six. Days are counted as in the
proleptic Gregorian calendar. `parse_toISOString`: what is printed reads back as
the same instant. -/
namespace IsoDate
open Data (Text)

/-! ### Days -/

/-- The number of the first day of a year, day 0 being 1970-01-01. -/
def dayFromYear (y : Int) : Int :=
  365 * (y - 1970) + (y - 1969) / 4 - (y - 1901) / 100 + (y - 1601) / 400

def isLeap (y : Int) : Bool := y % 4 == 0 && (y % 100 != 0 || y % 400 == 0)

/-- Days of the year before month `m`, January being month 0; month 12 is the
next year. -/
def monthStart (leap : Bool) (m : Nat) : Nat :=
  [0, 31, 59, 90, 120, 151, 181, 212, 243, 273, 304, 334, 365].getD m 365 +
    if leap && decide (2 ≤ m) then 1 else 0

def daysInMonth (leap : Bool) (m : Nat) : Nat := monthStart leap (m + 1) - monthStart leap m

/-- The last year that has begun by day `d`. -/
def yearFromDay (d : Nat) : Nat :=
  1970 + Nat.findGreatest (fun r : Nat => dayFromYear (1970 + r) ≤ d) (d / 365)

/-- The last month that has begun by day `d` of the year. -/
def monthFromDay (leap : Bool) (d : Nat) : Nat := Nat.findGreatest (fun m => monthStart leap m ≤ d) 11

theorem dayFromYear_succ (y : Int) :
    dayFromYear (y + 1) = dayFromYear y + 365 + if isLeap y then 1 else 0 := by
  simp only [dayFromYear, isLeap, Bool.and_eq_true, Bool.or_eq_true, beq_iff_eq, bne_iff_ne]
  split <;> omega

theorem dayFromYear_le (d : Nat) : dayFromYear (yearFromDay d) ≤ d := by
  have h := Nat.findGreatest_spec (P := fun r : Nat => dayFromYear (1970 + r) ≤ d)
    (Nat.zero_le (d / 365)) (show dayFromYear (1970 + (0 : Nat)) ≤ d by
      have : dayFromYear (1970 + (0 : Nat)) = 0 := by decide
      omega)
  simpa [yearFromDay] using h

theorem lt_dayFromYear_succ (d : Nat) : (d : Int) < dayFromYear (yearFromDay d + 1) := by
  by_contra hle
  have hle : dayFromYear (1970 + (yearFromDay d - 1969 : Nat)) ≤ d := by
    have h1970 : 1970 ≤ yearFromDay d := Nat.le_add_right _ _
    have : (1970 : Int) + (yearFromDay d - 1969 : Nat) = yearFromDay d + 1 := by omega
    rw [this]
    omega
  refine Nat.findGreatest_is_greatest (P := fun r : Nat => dayFromYear (1970 + r) ≤ d)
    (n := d / 365) (k := yearFromDay d - 1969) ?_ ?_ hle
  · simp only [yearFromDay]
    omega
  · -- Every year has at least 365 days.
    simp only [dayFromYear] at hle
    omega

theorem monthStart_le (leap : Bool) (d : Nat) : monthStart leap (monthFromDay leap d) ≤ d :=
  Nat.findGreatest_spec (P := fun m => monthStart leap m ≤ d) (Nat.zero_le 11)
    (by cases leap <;> simp [monthStart])

theorem monthFromDay_le (leap : Bool) (d : Nat) : monthFromDay leap d ≤ 11 :=
  Nat.findGreatest_le 11

theorem lt_monthStart_succ (leap : Bool) (d : Nat) (hd : d < monthStart leap 12) :
    d < monthStart leap (monthFromDay leap d + 1) := by
  by_cases h11 : monthFromDay leap d = 11
  · rw [h11]
    exact hd
  · have hle := monthFromDay_le leap d
    exact Nat.lt_of_not_le (Nat.findGreatest_is_greatest (P := fun m => monthStart leap m ≤ d)
      (n := 11) (Nat.lt_succ_self _) (by omega))

/-! ### Civil time -/

structure Civil where
  year : Int
  /-- January is month 0. -/
  month : Nat
  day : Nat
  hour : Nat
  minute : Nat
  second : Nat
  millisecond : Nat

/-- Fields within their ranges. -/
structure Civil.Valid (c : Civil) : Prop where
  month : c.month ≤ 11
  day : 1 ≤ c.day ∧ c.day ≤ daysInMonth (isLeap c.year) c.month
  hour : c.hour < 24
  minute : c.minute < 60
  second : c.second < 60
  millisecond : c.millisecond < 1000

instance (c : Civil) : Decidable c.Valid :=
  decidable_of_iff (c.month ≤ 11 ∧ (1 ≤ c.day ∧ c.day ≤ daysInMonth (isLeap c.year) c.month) ∧
      c.hour < 24 ∧ c.minute < 60 ∧ c.second < 60 ∧ c.millisecond < 1000)
    ⟨fun ⟨a, b, c, d, e, f⟩ => ⟨a, b, c, d, e, f⟩, fun h => ⟨h.1, h.2, h.3, h.4, h.5, h.6⟩⟩

/-- The instant that civil time names. -/
def Civil.time (c : Civil) : Int :=
  (dayFromYear c.year + monthStart (isLeap c.year) c.month + (c.day - 1)) * 86400000 +
    c.hour * 3600000 + c.minute * 60000 + c.second * 1000 + c.millisecond

def civil (t : Nat) : Civil :=
  let d := t / 86400000
  let year := yearFromDay d
  let leap := isLeap year
  let dayInYear := (d - dayFromYear year).toNat
  let month := monthFromDay leap dayInYear
  { year, month
    day := dayInYear - monthStart leap month + 1
    hour := t / 3600000 % 24
    minute := t / 60000 % 60
    second := t / 1000 % 60
    millisecond := t % 1000 }

theorem dayInYear_lt (d : Nat) :
    (d - dayFromYear (yearFromDay d)).toNat < monthStart (isLeap (yearFromDay d)) 12 := by
  have hle := dayFromYear_le d
  have hlt := lt_dayFromYear_succ d
  rw [dayFromYear_succ] at hlt
  have h12 : monthStart (isLeap (yearFromDay d)) 12 =
      365 + if isLeap (yearFromDay d) then 1 else 0 := by
    cases isLeap (yearFromDay d) <;> rfl
  rw [h12]
  split <;> rename_i h <;> simp only [h, if_true, Bool.false_eq_true, if_false] at hlt <;> omega

theorem civil_valid (t : Nat) : (civil t).Valid := by
  have hlt := dayInYear_lt (t / 86400000)
  have hstart := monthStart_le (isLeap (yearFromDay (t / 86400000)))
    ((t / 86400000 : Nat) - dayFromYear (yearFromDay (t / 86400000))).toNat
  have hnext := lt_monthStart_succ _ _ hlt
  refine ⟨monthFromDay_le _ _, ⟨Nat.le_add_left _ _, ?_⟩, ?_, ?_, ?_, ?_⟩
  · simp only [civil, daysInMonth]
    omega
  all_goals exact Nat.mod_lt _ (by decide)

theorem time_civil (t : Nat) : (civil t).time = t := by
  have hle := dayFromYear_le (t / 86400000)
  have hstart := monthStart_le (isLeap (yearFromDay (t / 86400000)))
    ((t / 86400000 : Nat) - dayFromYear (yearFromDay (t / 86400000))).toNat
  simp only [Civil.time, civil]
  omega

/-! ### Text -/

def digit (k : Nat) : Char := Char.ofNat (48 + k)

def digitValue (c : Char) : Option Nat :=
  if 48 ≤ c.toNat ∧ c.toNat ≤ 57 then some (c.toNat - 48) else none

/-- The last `w` decimal digits of `n`. -/
def digits : Nat → Nat → Text
  | 0, _ => []
  | w + 1, n => digit (n / 10 ^ w % 10) :: digits w n

/-- Read `w` digits, after the digits already read into `n`. -/
def readDigits : Nat → Nat → Text → Option (Nat × Text)
  | 0, n, s => some (n, s)
  | _ + 1, _, [] => none
  | w + 1, n, c :: s => (digitValue c).bind fun k => readDigits w (10 * n + k) s

def expect (c : Char) : Text → Option Text
  | [] => none
  | d :: s => if d = c then some s else none

theorem digitValue_digit (k : Nat) (hk : k < 10) : digitValue (digit k) = some k := by
  interval_cases k <;> decide

theorem readDigits_digits (w n m : Nat) (s : Text) :
    readDigits w n (digits w m ++ s) = some (n * 10 ^ w + m % 10 ^ w, s) := by
  induction w generalizing n with
  | zero => simp [digits, readDigits, Nat.mod_one]
  | succ w ih =>
    simp only [digits, List.cons_append, readDigits,
      digitValue_digit _ (Nat.mod_lt _ (by decide : 0 < 10)), Option.bind_some, ih]
    have hsplit : m % 10 ^ (w + 1) = m % 10 ^ w + 10 ^ w * (m / 10 ^ w % 10) := Nat.mod_pow_succ
    rw [hsplit]
    congr 2
    ring

/-- Four digits for the years 0 to 9999, a sign and six digits for the others. -/
def printYear (y : Int) : Text :=
  if 0 ≤ y ∧ y ≤ 9999 then digits 4 y.toNat
  else (if 0 ≤ y then '+' else '-') :: digits 6 y.natAbs

def readYear : Text → Option (Int × Text)
  | '+' :: s => (readDigits 6 0 s).map fun (n, rest) => (n, rest)
  | '-' :: s => (readDigits 6 0 s).bind fun (n, rest) => if n = 0 then none else some (-n, rest)
  | s => (readDigits 4 0 s).map fun (n, rest) => (n, rest)

theorem readYear_printYear (y : Nat) (hy : y < 1000000) (s : Text) :
    readYear (printYear y ++ s) = some ((y : Int), s) := by
  by_cases h : y ≤ 9999
  · have hprint : printYear y = digits 4 y := by simp [printYear, h]
    rw [hprint]
    -- The first digit is no sign.
    have hread : readYear (digits 4 y ++ s) =
        (readDigits 4 0 (digits 4 y ++ s)).map fun (n, rest) => ((n : Int), rest) := by
      simp only [digits, List.cons_append]
      have hlt : y / 10 ^ 3 % 10 < 10 := Nat.mod_lt _ (by decide)
      interval_cases y / 10 ^ 3 % 10 <;> rfl
    rw [hread, readDigits_digits, Nat.mod_eq_of_lt (by omega)]
    simp
  · have hprint : printYear y = '+' :: digits 6 y := by simp [printYear, h]
    rw [hprint, List.cons_append, readYear, readDigits_digits,
      Nat.mod_eq_of_lt (show y < 10 ^ 6 by omega)]
    simp

def print (c : Civil) : Text :=
  printYear c.year ++ '-' :: digits 2 (c.month + 1) ++ '-' :: digits 2 c.day ++ 'T' ::
    digits 2 c.hour ++ ':' :: digits 2 c.minute ++ ':' :: digits 2 c.second ++ '.' ::
    digits 3 c.millisecond ++ ['Z']

/-- The milliseconds of a fraction of a second: its first three digits. -/
def fraction (ds : List Nat) : Nat := ds.getD 0 0 * 100 + ds.getD 1 0 * 10 + ds.getD 2 0

/-- `.` and one or more digits, or nothing, and then `Z` and the end. -/
def readFraction : Text → Option Nat
  | ['Z'] => some 0
  | '.' :: s =>
    let ds := (s.takeWhile fun c => (digitValue c).isSome).filterMap digitValue
    if ds ≠ [] ∧ (s.dropWhile fun c => (digitValue c).isSome) = ['Z'] then some (fraction ds)
    else none
  | _ => none

/-- The second and the millisecond, which may both be left out. -/
def readSeconds (s : Text) : Option (Nat × Nat) :=
  if s = ['Z'] then some (0, 0)
  else do
    let (second, s) ← readDigits 2 0 (← expect ':' s)
    let millisecond ← readFraction s
    some (second, millisecond)

def read (s : Text) : Option Civil := do
  let (year, s) ← readYear s
  let (month, s) ← readDigits 2 0 (← expect '-' s)
  let (day, s) ← readDigits 2 0 (← expect '-' s)
  let (hour, s) ← readDigits 2 0 (← expect 'T' s)
  let (minute, s) ← readDigits 2 0 (← expect ':' s)
  let (second, millisecond) ← readSeconds s
  let c : Civil := ⟨year, month - 1, day, hour, minute, second, millisecond⟩
  if 1 ≤ month ∧ c.Valid then some c else none

/-- `date.toISOString()` -/
def toISOString (t : Nat) : Text := print (civil t)

/-- `new Date(s)`; an invalid date is `none`. -/
def parse (s : Text) : Option Int := (read s).map Civil.time

theorem readFraction_digits (n : Nat) (hn : n < 1000) :
    readFraction ('.' :: (digits 3 n ++ ['Z'])) = some n := by
  have h2 : n / 10 ^ 2 % 10 < 10 := Nat.mod_lt _ (by decide)
  have h1 : n / 10 ^ 1 % 10 < 10 := Nat.mod_lt _ (by decide)
  have h0 : n / 10 ^ 0 % 10 < 10 := Nat.mod_lt _ (by decide)
  have hZ : digitValue 'Z' = none := by decide
  simp only [readFraction, digits, List.cons_append, List.nil_append, List.takeWhile_cons,
    List.dropWhile_cons, List.takeWhile_nil, digitValue_digit _ h2, digitValue_digit _ h1,
    digitValue_digit _ h0, hZ, Option.isSome_some, Option.isSome_none, if_true,
    Bool.false_eq_true, if_false, List.filterMap_cons, List.filterMap_nil]
  simp [fraction]
  omega

theorem Civil.Valid.day_le {c : Civil} (hc : c.Valid) : c.day ≤ 31 := by
  have hm := hc.month
  refine hc.day.2.trans ?_
  generalize isLeap c.year = leap
  generalize c.month = m at hm ⊢
  cases leap <;> interval_cases m <;> decide

theorem readDigits_two (n : Nat) (s : Text) (hn : n < 100) :
    readDigits 2 0 (digits 2 n ++ s) = some (n, s) := by
  rw [readDigits_digits, Nat.mod_eq_of_lt (show n < 10 ^ 2 by omega)]
  simp

theorem expect_self (c : Char) (s : Text) : expect c (c :: s) = some s := if_pos rfl

theorem readSeconds_digits (n k : Nat) (hn : n < 100) (hk : k < 1000) :
    readSeconds (':' :: (digits 2 n ++ '.' :: (digits 3 k ++ ['Z']))) = some (n, k) := by
  rw [readSeconds, if_neg (by simp)]
  simp only [Option.bind_eq_bind, Option.bind_some, expect_self, readDigits_two n _ hn,
    readFraction_digits k hk]

theorem read_print (c : Civil) (hc : c.Valid) (y : Nat) (hy : c.year = y) (hlt : y < 1000000) :
    read (print c) = some c := by
  have hday := hc.day_le
  have hmonth := hc.month
  have hhour := hc.hour
  have hminute := hc.minute
  have hsecond := hc.second
  simp only [read, print, List.append_assoc, List.cons_append, hy,
    readYear_printYear y hlt, Option.bind_eq_bind, Option.bind_some, expect_self,
    readDigits_two (c.month + 1) _ (by omega), readDigits_two c.day _ (by omega),
    readDigits_two c.hour _ (by omega), readDigits_two c.minute _ (by omega),
    readSeconds_digits c.second _ (by omega) hc.millisecond, Nat.add_sub_cancel]
  have hsame : (⟨y, c.month, c.day, c.hour, c.minute, c.second, c.millisecond⟩ : Civil) = c := by
    rw [← hy]
  rw [hsame, if_pos ⟨by omega, hc⟩]

/-- Years of six digits reach past day 365242499, and the dates of JavaScript end
at day 100000000. -/
theorem year_lt (t : Nat) (ht : t ≤ 8640000000000000) : yearFromDay (t / 86400000) < 1000000 := by
  have : Nat.findGreatest (fun r : Nat => dayFromYear (1970 + r) ≤ (t / 86400000 : Nat))
      (t / 86400000 / 365) ≤ t / 86400000 / 365 := Nat.findGreatest_le _
  simp only [yearFromDay]
  omega

/-- **What `toISOString` prints reads back as the same instant.** -/
theorem parse_toISOString (t : Nat) (ht : t ≤ 8640000000000000) :
    parse (toISOString t) = some (t : Int) := by
  rw [parse, toISOString, read_print _ (civil_valid t) _ rfl (year_lt t ht), Option.map_some,
    time_civil]

/-- The years up to 9999 end with this instant. -/
def endOfYear9999 : Nat := 253402300800000

theorem year_le (t : Nat) (ht : t < endOfYear9999) : yearFromDay (t / 86400000) ≤ 9999 := by
  have hle := dayFromYear_le (t / 86400000)
  have hday : t / 86400000 < 2932897 := by
    rw [endOfYear9999] at ht
    omega
  simp only [dayFromYear] at hle
  omega

/-- Up to then no sign is printed. -/
theorem toISOString_head (t : Nat) (ht : t < endOfYear9999) :
    (toISOString t).head?.any Char.isDigit = true := by
  have hprint : ∀ y : Nat, y ≤ 9999 → printYear y = digits 4 y := by
    intro y hy
    simp [printYear, hy]
  have hyear : printYear (civil t).year = digits 4 (yearFromDay (t / 86400000)) :=
    hprint _ (year_le t ht)
  rw [toISOString, print, hyear]
  simp only [digits, List.cons_append, List.head?_cons, Option.any_some]
  have hlt : yearFromDay (t / 86400000) / 10 ^ 3 % 10 < 10 := Nat.mod_lt _ (by decide)
  interval_cases yearFromDay (t / 86400000) / 10 ^ 3 % 10 <;> rfl

example : toISOString 1788862500123 = "2026-09-08T10:15:00.123Z".toList := by decide +kernel

example : parse "2026-09-08T10:15Z".toList = parse "2026-09-08T10:15:00.000Z".toList := by decide +kernel

end IsoDate
