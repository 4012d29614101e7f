/-
This file gives the lexical forms of `xsd:dateTime` by a grammar and proves that nothing else is
read as a datetime. The grammar says which characters a text consists of and knows nothing of how
it is read; what is read is a form of the grammar, part by part from the left.
-/
import Mathlib.Data.List.TakeWhile
import ShapeQuery.Calendar.DateTime
import ShapeQuery.Proofs.Success

namespace ShapeQuery.Calendar

open Number (digitsValue)

/-! ### Lexical forms -/

/-- Digits. -/
def AreDigits (characters : List Char) : Prop :=
  ∀ character ∈ characters, character.isDigit = true

/-- Two digits whose number lies between bounds. -/
structure IsTwoDigits (low high : Nat) (characters : List Char) : Prop where
  digits : AreDigits characters
  length : characters.length = 2
  low : low ≤ digitsValue characters
  high : digitsValue characters ≤ high

/-- A year has four digits, or more of which the first is not zero. -/
structure IsYear (characters : List Char) : Prop where
  digits : AreDigits characters
  length : 4 ≤ characters.length
  leading : 4 < characters.length → characters.head? ≠ some '0'

/-- A fraction of a second: nothing, or a point and digits. -/
inductive IsFraction : List Char → Prop where
  | none : IsFraction []
  | digits {fraction : List Char} : fraction ≠ [] → AreDigits fraction →
      IsFraction ('.' :: fraction)

/-- A timezone: nothing, the letter `Z`, or a sign with hours and minutes up to fourteen hours. -/
inductive IsZone : List Char → Prop where
  | none : IsZone []
  | universal : IsZone ['Z']
  | offset {sign : Char} {hours minutes : List Char} : sign = '+' ∨ sign = '-' →
      IsTwoDigits 0 14 hours → IsTwoDigits 0 59 minutes →
      (digitsValue hours = 14 → digitsValue minutes = 0) →
        IsZone (sign :: (hours ++ ':' :: minutes))

/-- The parts of a date. -/
structure DateForm where
  sign : List Char
  year : List Char
  month : List Char
  day : List Char

namespace DateForm

/-- The characters of a date. -/
def characters (form : DateForm) : List Char :=
  form.sign ++ form.year ++ '-' :: form.month ++ '-' :: form.day

/-- The number of a year. -/
def number (sign year : List Char) : Int :=
  if sign = [] then digitsValue year else -digitsValue year

/-- Whether the parts are those of a day. -/
structure IsValid (form : DateForm) : Prop where
  sign : form.sign = [] ∨ form.sign = ['-']
  year : IsYear form.year
  month : IsTwoDigits 1 12 form.month
  day : IsTwoDigits 1 31 form.day
  dayOfMonth : digitsValue form.day ≤
    daysInMonth (number form.sign form.year) (digitsValue form.month)

end DateForm

/-- The parts of a time of day. -/
structure TimeForm where
  hour : List Char
  minute : List Char
  second : List Char
  fraction : List Char

namespace TimeForm

/-- The characters of a time of day. -/
def characters (form : TimeForm) : List Char :=
  form.hour ++ ':' :: form.minute ++ ':' :: form.second ++ form.fraction

/-- Whether the parts are those of a time of day; the last one is midnight of the next day. -/
structure IsValid (form : TimeForm) : Prop where
  hour : IsTwoDigits 0 24 form.hour
  minute : IsTwoDigits 0 59 form.minute
  second : IsTwoDigits 0 59 form.second
  fraction : IsFraction form.fraction
  endOfDay : digitsValue form.hour = 24 → digitsValue form.minute = 0 ∧
    digitsValue form.second = 0 ∧ ∀ digit ∈ form.fraction, digit = '.' ∨ digit = '0'

end TimeForm

/-- Whether a text is a lexical form of `xsd:dateTime`. -/
def IsDateTime (text : String) : Prop :=
  ∃ (date : DateForm) (time : TimeForm) (zone : List Char), date.IsValid ∧ time.IsValid ∧
    IsZone zone ∧ text.toList = date.characters ++ 'T' :: time.characters ++ zone

/-! ### Fragments -/

variable {characters rest : List Char} {fault : Fault}

theorem expect_ok {expected : Char} (read : expect expected fault characters = .ok rest) :
    characters = expected :: rest := by
  unfold expect at read
  split at read
  · cases read
  · split at read
    · rename_i same
      cases read
      rw [same]
    · cases read

/-- What comes after a run of digits does not begin with one. -/
theorem head?_dropWhile_isDigit (characters : List Char) :
    ∀ next ∈ (characters.dropWhile Char.isDigit).head?, next.isDigit = false := by
  intro next member
  have stopped := List.head?_dropWhile_not Char.isDigit characters
  rw [member] at stopped
  simpa using stopped

theorem areDigits_takeWhile (characters : List Char) :
    AreDigits (characters.takeWhile Char.isDigit) :=
  fun _ member => List.mem_takeWhile_imp member

theorem twoDigits_ok {low high value : Nat} {rangeFault : Fault}
    (read : twoDigits low high fault rangeFault characters = .ok (value, rest)) :
    ∃ digits, characters = digits ++ rest ∧ IsTwoDigits low high digits ∧
      digitsValue digits = value := by
  unfold twoDigits at read
  simp only at read
  split at read
  · cases read
  · split at read
    · cases read
    · rename_i count range
      cases read
      exact ⟨_, List.takeWhile_append_dropWhile.symm,
        ⟨areDigits_takeWhile _, by omega, by omega, by omega⟩, rfl⟩

theorem year_ok {value : Int} (read : year characters = .ok (value, rest)) :
    ∃ sign digits, characters = sign ++ (digits ++ rest) ∧ (sign = [] ∨ sign = ['-']) ∧
      IsYear digits ∧ DateForm.number sign digits = value := by
  unfold year at read
  split at read
  rename_i negative body signed
  simp only at read
  split at read
  · cases read
  split at read
  · cases read
  split at read
  · cases read
  rename_i long leading _
  cases read
  have digits : IsYear (body.takeWhile Char.isDigit) :=
    ⟨areDigits_takeWhile _, by omega, fun longer => not_and.1 leading longer⟩
  split at signed
  · cases signed
    exact ⟨['-'], _, by rw [List.takeWhile_append_dropWhile]; rfl, .inr rfl, digits, rfl⟩
  · cases signed
    exact ⟨[], _, List.takeWhile_append_dropWhile.symm, .inl rfl, digits, rfl⟩

theorem eq_zero_of_foldl {digits : List Char} (known : AreDigits digits) {start : Nat}
    (zero : digits.foldl (fun value digit => 10 * value + (digit.toNat - '0'.toNat)) start = 0) :
    start = 0 ∧ ∀ digit ∈ digits, digit = '0' := by
  induction digits generalizing start with
  | nil => exact ⟨zero, fun _ member => absurd member List.not_mem_nil⟩
  | cons digit rest inductionHypothesis =>
    obtain ⟨own, known⟩ := List.forall_mem_cons.1 known
    obtain ⟨sum, further⟩ : 10 * start + (digit.toNat - '0'.toNat) = 0 ∧ _ :=
      inductionHypothesis known zero
    have bound : '0'.toNat ≤ digit.toNat := by
      simp only [Char.isDigit, Bool.and_eq_true, decide_eq_true_eq] at own
      exact own.1
    have same : digit.toNat = '0'.toNat := by omega
    exact ⟨by omega, List.forall_mem_cons.2 ⟨Char.toNat_inj.1 same, further⟩⟩

/-- Digits whose number is zero are zeros. -/
theorem eq_zero_of_digitsValue {digits : List Char} (known : AreDigits digits)
    (zero : digitsValue digits = 0) : ∀ digit ∈ digits, digit = '0' :=
  (eq_zero_of_foldl known zero).2

/-- Only zeros are left out of the digits of a fraction. -/
theorem mem_significantFraction {digits : List Char} {digit : Char} (member : digit ∈ digits) :
    digit = '0' ∨ digit ∈ significantFraction digits := by
  rw [← List.mem_reverse, ← @List.takeWhile_append_dropWhile _ (· = '0') digits.reverse,
    List.mem_append] at member
  refine member.imp (fun before => ?_) fun after => ?_
  · simpa using List.mem_takeWhile_imp before
  · rwa [significantFraction, List.mem_reverse]

theorem mem_of_significantFraction {digits : List Char} {digit : Char}
    (member : digit ∈ significantFraction digits) : digit ∈ digits := by
  rw [significantFraction, List.mem_reverse] at member
  exact List.mem_reverse.1 ((List.dropWhile_sublist _).subset member)

theorem seconds_ok {whole fraction : Nat}
    (read : seconds characters = .ok ((whole, fraction), rest)) :
    ∃ digits point, characters = digits ++ (point ++ rest) ∧ IsTwoDigits 0 59 digits ∧
      digitsValue digits = whole ∧ IsFraction point ∧
      (fraction = 0 → ∀ digit ∈ point, digit = '.' ∨ digit = '0') ∧
      ∀ next ∈ rest.head?, next.isDigit = false := by
  have written : characters =
      characters.takeWhile Char.isDigit ++ characters.dropWhile Char.isDigit :=
    List.takeWhile_append_dropWhile.symm
  unfold seconds at read
  dsimp only at read
  split at read
  · cases read
  rename_i count
  split at read
  · rename_i after found
    rw [found, ← @List.takeWhile_append_dropWhile _ Char.isDigit after] at written
    dsimp only at read
    split at read
    · cases read
    split at read
    · cases read
    split at read
    · cases read
    rename_i range nonempty
    cases read
    have digits := areDigits_takeWhile after
    refine ⟨_, '.' :: after.takeWhile Char.isDigit, written,
      ⟨areDigits_takeWhile _, by omega, Nat.zero_le _, by omega⟩, rfl,
      .digits (by simpa using nonempty) digits, fun zero => ?_, head?_dropWhile_isDigit after⟩
    have significant : digitsValue (significantFraction (after.takeWhile Char.isDigit)) = 0 :=
      (Nat.mul_eq_zero.1 zero).resolve_right (Nat.pow_pos (by decide)).ne'
    refine List.forall_mem_cons.2 ⟨.inl rfl, fun digit member => .inr ?_⟩
    exact (mem_significantFraction member).elim id
      (eq_zero_of_digitsValue (fun _ inside => digits _ (mem_of_significantFraction inside))
        significant digit)
  · dsimp only at read
    split at read
    · cases read
    split at read
    · cases read
    split at read
    · cases read
    rename_i range _
    cases read
    exact ⟨_, [], written, ⟨areDigits_takeWhile _, by omega, Nat.zero_le _, by omega⟩, rfl, .none,
      fun _ _ member => absurd member List.not_mem_nil, head?_dropWhile_isDigit _⟩

theorem zone_ok {offset : Int} (ended : ∀ next ∈ characters.head?, next.isDigit = false)
    (read : zone characters = .ok (offset, rest)) :
    ∃ written, characters = written ++ rest ∧ IsZone written := by
  unfold zone at read
  split at read
  · cases read
    exact ⟨['Z'], rfl, .universal⟩
  · split at read
    rename_i sign body signed
    obtain ⟨⟨hours, afterHours⟩, hoursRead, read⟩ := Success.bind_ok.1 read
    obtain ⟨afterColon, colonRead, read⟩ := Success.bind_ok.1 read
    obtain ⟨⟨minutes, afterMinutes⟩, minutesRead, read⟩ := Success.bind_ok.1 read
    dsimp only at read colonRead minutesRead hoursRead
    split at read
    · cases read
    rename_i range
    cases read
    obtain ⟨hourDigits, rfl, hour, rfl⟩ := twoDigits_ok hoursRead
    obtain rfl := expect_ok colonRead
    obtain ⟨minuteDigits, rfl, minute, rfl⟩ := twoDigits_ok minutesRead
    have offset {mark : Char} (known : mark = '+' ∨ mark = '-') :
        IsZone (mark :: (hourDigits ++ ':' :: minuteDigits)) :=
      .offset known ⟨hour.digits, hour.length, hour.low, by omega⟩ minute (by omega)
    split at signed
    · cases signed
      exact ⟨_, by simp, offset (.inr rfl)⟩
    · cases signed
      exact ⟨_, by simp, offset (.inl rfl)⟩
    · cases signed
      -- Without a sign, the hours would belong to the digits before them.
      obtain ⟨first, others, rfl⟩ := List.exists_cons_of_ne_nil
        (List.ne_nil_of_length_pos (hour.length ▸ Nat.two_pos))
      exact absurd (hour.digits first List.mem_cons_self) (by simp [ended first rfl])

/-! ### Datetimes -/

/-- What is read as a date is one if the month has the day, which is checked later. -/
theorem yearMonthDay_ok {year : Int} {month day : Nat}
    (read : yearMonthDay characters = .ok ((year, month, day), rest)) :
    ∃ form : DateForm, characters = form.characters ++ rest ∧
      (day ≤ daysInMonth year month → form.IsValid) := by
  obtain ⟨⟨_, _⟩, yearRead, read⟩ := Success.bind_ok.1 read
  obtain ⟨_, monthMark, read⟩ := Success.bind_ok.1 read
  obtain ⟨⟨_, _⟩, monthRead, read⟩ := Success.bind_ok.1 read
  obtain ⟨_, dayMark, read⟩ := Success.bind_ok.1 read
  obtain ⟨⟨_, _⟩, dayRead, read⟩ := Success.bind_ok.1 read
  cases read
  obtain ⟨sign, yearDigits, rfl, signed, yearForm, rfl⟩ := year_ok yearRead
  obtain rfl := expect_ok monthMark
  obtain ⟨monthDigits, rfl, monthForm, rfl⟩ := twoDigits_ok monthRead
  obtain rfl := expect_ok dayMark
  obtain ⟨dayDigits, rfl, dayForm, rfl⟩ := twoDigits_ok dayRead
  exact ⟨⟨sign, yearDigits, monthDigits, dayDigits⟩, by simp [DateForm.characters],
    fun known => ⟨signed, yearForm, monthForm, dayForm, known⟩⟩

theorem timeOfDay_ok {time : Time} (read : timeOfDay characters = .ok (time, rest)) :
    ∃ form : TimeForm, characters = form.characters ++ rest ∧ form.IsValid ∧
      ∀ next ∈ rest.head?, next.isDigit = false := by
  obtain ⟨⟨_, _⟩, hourRead, read⟩ := Success.bind_ok.1 read
  obtain ⟨_, minuteMark, read⟩ := Success.bind_ok.1 read
  obtain ⟨⟨_, _⟩, minuteRead, read⟩ := Success.bind_ok.1 read
  obtain ⟨_, secondMark, read⟩ := Success.bind_ok.1 read
  obtain ⟨⟨⟨_, _⟩, _⟩, secondRead, read⟩ := Success.bind_ok.1 read
  dsimp only at read secondRead
  split at read
  · cases read
  rename_i midnight
  cases read
  obtain ⟨hourDigits, rfl, hourForm, rfl⟩ := twoDigits_ok hourRead
  obtain rfl := expect_ok minuteMark
  obtain ⟨minuteDigits, rfl, minuteForm, rfl⟩ := twoDigits_ok minuteRead
  obtain rfl := expect_ok secondMark
  obtain ⟨secondDigits, fraction, rfl, secondForm, rfl, fractionForm, zeros, ended⟩ :=
    seconds_ok secondRead
  refine ⟨⟨hourDigits, minuteDigits, secondDigits, fraction⟩, by simp [TimeForm.characters],
    ⟨hourForm, minuteForm, secondForm, fractionForm, fun last => ?_⟩, ended⟩
  obtain ⟨minute, second, none⟩ := not_not.1 (not_and.1 midnight last)
  exact ⟨minute, second, zeros none⟩

theorem optionalZone_ok {zone : Option Int}
    (ended : ∀ next ∈ characters.head?, next.isDigit = false)
    (read : optionalZone characters = .ok (zone, rest)) :
    ∃ written, characters = written ++ rest ∧ IsZone written := by
  unfold optionalZone at read
  split at read
  · rename_i empty
    cases read
    exact ⟨[], List.isEmpty_iff.1 empty, .none⟩
  · obtain ⟨found, zoneRead, same⟩ := Success.map_ok.1 read
    cases same
    exact zone_ok ended zoneRead

theorem check_ok {date : Date} {time : Time} (passes : check date time = .ok ()) :
    date.day ≤ daysInMonth date.year date.month := by
  by_contra beyond
  rw [check, if_pos (Nat.lt_of_not_le beyond)] at passes
  cases passes

theorem finish_ok {α : Type} {value result : α} (read : finish value rest = .ok result) :
    rest = [] := by
  unfold finish at read
  split at read
  · rename_i empty
    exact List.isEmpty_iff.1 empty
  · cases read

/-- Only the lexical forms of `xsd:dateTime` are read as datetimes. -/
theorem isDateTime_of_readDateTime {text : String} {value : Date × Time}
    (read : readDateTime text = .ok value) : IsDateTime text := by
  obtain ⟨⟨⟨year, month, day⟩, _⟩, dateRead, read⟩ := Success.bind_ok.1 read
  obtain ⟨_, letterRead, read⟩ := Success.bind_ok.1 read
  obtain ⟨⟨time, _⟩, timeRead, read⟩ := Success.bind_ok.1 read
  obtain ⟨⟨zone, _⟩, zoneRead, read⟩ := Success.bind_ok.1 read
  obtain ⟨_, passes, finished⟩ := Success.bind_ok.1 read
  obtain ⟨date, written, dateForm⟩ := yearMonthDay_ok dateRead
  obtain rfl := expect_ok letterRead
  obtain ⟨time, rfl, timeForm, ended⟩ := timeOfDay_ok timeRead
  obtain ⟨zone, rfl, zoneForm⟩ := optionalZone_ok ended zoneRead
  obtain rfl := finish_ok finished
  exact ⟨date, time, zone, dateForm (check_ok passes), timeForm, zoneForm, by simp [written]⟩

end ShapeQuery.Calendar
