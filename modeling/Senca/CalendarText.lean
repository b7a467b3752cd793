import Mathlib.Algebra.Order.Field.Rat
import Mathlib.Data.Rat.Cast.Order
import Mathlib.Tactic.FieldSimp
import Mathlib.Tactic.NormNum
import Mathlib.Tactic.Ring

/-!
# Timestamps in UTC

Moments of the proleptic Gregorian calendar, the instants they are, and
their text with two-digit fields, an optional fraction of a second and a
closing Z. Reading the text back gives the moment and the fraction.
-/

namespace Senca.CalendarText

/-! ### Calendar -/

/-- Every fourth year, but of the centuries only every fourth. -/
def isLeap (year : ℕ) : Bool := year%4 = 0 && (year%100 ≠ 0 || year%400 = 0)

def daysInMonth (year month : ℕ) : ℕ :=
  if month = 2 then if isLeap year then 29 else 28
  else if month = 4 ∨ month = 6 ∨ month = 9 ∨ month = 11 then 30 else 31

/-- The days from the first day of year 1 to the first day of a year. -/
def daysBeforeYear (year : ℕ) : ℕ :=
  (year-1)*365+(year-1)/4-(year-1)/100+(year-1)/400

/-- The days of a year before the first day of a month. -/
def daysBeforeMonth (year month : ℕ) : ℕ :=
  ((List.range' 1 (month-1)).map (daysInMonth year)).sum

/-- A second of the calendar, in a year of at most four digits. -/
structure Moment where
  year : ℕ
  month : ℕ
  day : ℕ
  hour : ℕ
  minute : ℕ
  second : ℕ
  /-- The date exists. -/
  date_valid : 1 ≤ year ∧ year < 10000 ∧ 1 ≤ month ∧ month ≤ 12 ∧ 1 ≤ day ∧
    day ≤ daysInMonth year month
  /-- So does the time; leap seconds are not counted. -/
  time_valid : hour < 24 ∧ minute < 60 ∧ second < 60

/-- The seconds since the first day of 1970. -/
def Moment.seconds (m : Moment) : ℤ :=
  ((daysBeforeYear m.year+daysBeforeMonth m.year m.month+m.day : ℕ)-719163)*86400+
    (m.hour*3600+m.minute*60+m.second : ℕ)

/-- A moment and the digits of the fraction of its second. -/
structure Stamp where
  moment : Moment
  /-- None when the text has no fraction. -/
  fraction : List (Fin 10)

/-- The number that digits denote. -/
def digitsValue (digits : List (Fin 10)) : ℕ := digits.foldl (fun n d => 10*n+d.val) 0

/-- The instant of a timestamp, in microseconds since 1970. -/
def Stamp.instant (stamp : Stamp) : ℚ :=
  stamp.moment.seconds*10^6+digitsValue stamp.fraction*10^6/10^stamp.fraction.length

/-- The same of a fraction of at most six digits. -/
def Stamp.micros (stamp : Stamp) : ℤ :=
  stamp.moment.seconds*10^6+digitsValue stamp.fraction*10^(6-stamp.fraction.length)

/-- Six digits say how many microseconds there are. -/
theorem Stamp.micros_eq_instant {stamp : Stamp} (h : stamp.fraction.length ≤ 6) :
    (stamp.micros : ℚ) = stamp.instant := by
  have hpow : (10 : ℚ)^6 = 10^(6-stamp.fraction.length)*10^stamp.fraction.length := by
    rw [← pow_add,Nat.sub_add_cancel h]
  have hdiv : (10 : ℚ)^6/10^stamp.fraction.length = 10^(6-stamp.fraction.length) := by
    rw [hpow,mul_div_cancel_right₀]
    positivity
  rw [micros,instant,mul_div_assoc,hdiv]
  push_cast
  ring

/-! ### Text -/

/-- The character of a digit. -/
def digitChar (d : Fin 10) : Char := Char.ofNat (48+d.val)

/-- The digit of a character. -/
def digit? (c : Char) : Option (Fin 10) :=
  if h : 48 ≤ c.toNat ∧ c.toNat < 58 then some ⟨c.toNat-48,by omega⟩ else none

theorem digit?_digitChar : ∀ d : Fin 10, digit? (digitChar d) = some d := by decide

/-- The last n decimal digits of a number, higher ones first. -/
def lastDigits : ℕ → ℕ → List (Fin 10)
  | 0,_ => []
  | n+1,value => lastDigits n (value/10)++[⟨value%10,Nat.mod_lt _ (by decide)⟩]

/-- A number in a field of n digits. -/
def fieldText (n value : ℕ) : List Char := (lastDigits n value).map digitChar

/-- Year, month and day, before a text. -/
def dateText (year month day : ℕ) (rest : List Char) : List Char :=
  fieldText 4 year++ '-'::(fieldText 2 month++ '-'::(fieldText 2 day++rest))

/-- Hour, minute and second, before a text. -/
def timeText (hour minute second : ℕ) (rest : List Char) : List Char :=
  'T'::(fieldText 2 hour++ ':'::(fieldText 2 minute++ ':'::(fieldText 2 second++rest)))

/-- The fraction, if any, and the closing Z. -/
def fractionText (fraction : List (Fin 10)) : List Char :=
  if fraction = [] then ['Z'] else '.'::(fraction.map digitChar++['Z'])

/-- The text of a timestamp. -/
def Stamp.text (stamp : Stamp) : List Char :=
  dateText stamp.moment.year stamp.moment.month stamp.moment.day
    (timeText stamp.moment.hour stamp.moment.minute stamp.moment.second
      (fractionText stamp.fraction))

/-! ### Reading -/

/-- A field of n digits and the text after it. -/
def readField (n : ℕ) (text : List Char) : Option (ℕ×List Char) :=
  if n ≤ text.length then
    ((text.take n).mapM digit?).map (fun digits => (digitsValue digits,text.drop n))
  else none

/-- The text after a given first character. -/
def readChar (c : Char) : List Char → Option (List Char)
  | [] => none
  | d::rest => if d = c then some rest else none

/-- The fraction, if any, and the closing Z. -/
def readFraction : List Char → Option (List (Fin 10))
  | '.'::rest =>
    if rest.getLast? = some 'Z' ∧ rest.dropLast ≠ [] then rest.dropLast.mapM digit? else none
  | rest => if rest = ['Z'] then some [] else none

/-- A given character and a field of two digits. -/
def readNext (c : Char) (text : List Char) : Option (ℕ×List Char) :=
  (readChar c text).bind (readField 2)

/-- Year, month and day. -/
def readDate (text : List Char) : Option ((ℕ×ℕ×ℕ)×List Char) := do
  let (year,text) ← readField 4 text
  let (month,text) ← readNext '-' text
  let (day,text) ← readNext '-' text
  some ((year,month,day),text)

/-- Hour, minute and second. -/
def readTime (text : List Char) : Option ((ℕ×ℕ×ℕ)×List Char) := do
  let (hour,text) ← readNext 'T' text
  let (minute,text) ← readNext ':' text
  let (second,text) ← readNext ':' text
  some ((hour,minute,second),text)

/-- A timestamp, from its text. -/
def readStamp (text : List Char) : Option Stamp := do
  let ((year,month,day),text) ← readDate text
  let ((hour,minute,second),text) ← readTime text
  let fraction ← readFraction text
  if hd : 1 ≤ year ∧ year < 10000 ∧ 1 ≤ month ∧ month ≤ 12 ∧ 1 ≤ day ∧
      day ≤ daysInMonth year month then
    if ht : hour < 24 ∧ minute < 60 ∧ second < 60 then
      some ⟨⟨year,month,day,hour,minute,second,hd,ht⟩,fraction⟩
    else none
  else none

theorem mapM_digit? (digits : List (Fin 10)) :
    (digits.map digitChar).mapM digit? = some digits := by
  induction digits with
  | nil => rfl
  | cons d digits ih =>
    rw [List.map_cons,List.mapM_cons,digit?_digitChar,ih]
    rfl

theorem length_lastDigits (n value : ℕ) : (lastDigits n value).length = n := by
  induction n generalizing value with
  | zero => rfl
  | succ n ih => rw [lastDigits,List.length_append,ih,List.length_singleton]

/-- The last n digits of a number of at most n digits denote it. -/
theorem digitsValue_lastDigits {n value : ℕ} (h : value < 10^n) :
    digitsValue (lastDigits n value) = value := by
  induction n generalizing value with
  | zero =>
    rw [pow_zero] at h
    rw [lastDigits]
    change 0 = value
    omega
  | succ n ih =>
    have hdiv : value/10 < 10^n := by
      rw [pow_succ] at h
      omega
    have hrest := ih hdiv
    rw [digitsValue] at hrest
    rw [digitsValue,lastDigits,List.foldl_append,hrest]
    change 10*(value/10)+value%10 = value
    omega

theorem readField_fieldText {n value : ℕ} (h : value < 10^n) (rest : List Char) :
    readField n (fieldText n value++rest) = some (value,rest) := by
  have hlength : (fieldText n value).length = n := by
    rw [fieldText,List.length_map,length_lastDigits]
  rw [readField,if_pos (by rw [List.length_append]; omega),
    List.take_append_of_le_length hlength.ge,List.take_of_length_le hlength.le,
    List.drop_append_of_le_length hlength.ge,List.drop_of_length_le hlength.le,
    fieldText,mapM_digit?,Option.map_some,digitsValue_lastDigits h,List.nil_append]

theorem readNext_fieldText (c : Char) {value : ℕ} (h : value < 10^2) (rest : List Char) :
    readNext c (c::(fieldText 2 value++rest)) = some (value,rest) := by
  rw [readNext,readChar,if_pos rfl]
  exact readField_fieldText h rest

theorem readDate_dateText {year month day : ℕ} (hy : year < 10^4) (hm : month < 10^2)
    (hd : day < 10^2) (rest : List Char) :
    readDate (dateText year month day rest) = some ((year,month,day),rest) := by
  simp only [readDate,dateText,readField_fieldText hy,readNext_fieldText '-' hm,
    readNext_fieldText '-' hd,Option.bind_eq_bind,Option.bind_some]

theorem readTime_timeText {hour minute second : ℕ} (hh : hour < 10^2) (hm : minute < 10^2)
    (hs : second < 10^2) (rest : List Char) :
    readTime (timeText hour minute second rest) = some ((hour,minute,second),rest) := by
  simp only [readTime,timeText,readNext_fieldText 'T' hh,readNext_fieldText ':' hm,
    readNext_fieldText ':' hs,Option.bind_eq_bind,Option.bind_some]

theorem readFraction_fractionText (digits : List (Fin 10)) :
    readFraction (fractionText digits) = some digits := by
  rw [fractionText]
  by_cases h : digits = []
  · rw [if_pos h,h]
    rfl
  · rw [if_neg h,readFraction,List.getLast?_concat,List.dropLast_concat,
      if_pos ⟨rfl,by simpa using h⟩,mapM_digit?]

theorem daysInMonth_le (year month : ℕ) : daysInMonth year month ≤ 31 := by
  unfold daysInMonth
  split <;> split <;> omega

/-- The text of a timestamp is read back. -/
theorem readStamp_text (stamp : Stamp) : readStamp stamp.text = some stamp := by
  obtain ⟨⟨year,month,day,hour,minute,second,hd,ht⟩,fraction⟩ := stamp
  have hday := daysInMonth_le year month
  rw [Stamp.text]
  dsimp only
  rw [readStamp,readDate_dateText (by omega) (by omega) (by omega)]
  simp only [Option.bind_eq_bind,Option.bind_some]
  rw [readTime_timeText (by omega) (by omega) (by omega)]
  simp only [Option.bind_some,readFraction_fractionText,dif_pos hd,dif_pos ht]

theorem Stamp.text_ne_nil (stamp : Stamp) : stamp.text ≠ [] :=
  List.append_ne_nil_of_right_ne_nil _ (List.cons_ne_nil _ _)

/-- Timestamps with the same text are the same. -/
theorem Stamp.text_injective {first second : Stamp} (h : first.text = second.text) :
    first = second := by
  have hread := readStamp_text first
  rw [h,readStamp_text] at hread
  exact (Option.some.inj hread).symm

example : (readStamp "2025-02-01T12:00:00.250Z".toList).map Stamp.micros =
    some 1738411200250000 := by
  decide +kernel

end Senca.CalendarText
