import Criteria.Proofs.Filter.Operand
import Criteria.Proofs.Text.Span

/-!
# The forms of dates and times of day

A client that is refused is told to write `YYYY-MM-DD` or `HH:MM:SS`. The check of operands takes
every text of these forms that denotes a day or a time of day, but it takes more: blanks before each
number, a single digit where there should be two, and a year with a sign or with less than four
digits.

* `IsPaddedDate`, `IsPaddedTime` — the forms that are advertised;
* `IsDateText`, `IsTimeText` — the forms that are accepted;
* `isDate_iff`, `isTime_iff` — the readers accept these and nothing else;
* `isPaddedDate_iff`, `isPaddedTime_iff` — what is left of them without signs, blanks and missing
  digits;
* `Operand.check_temporal` — the same for operands.

A number ends where its digits end, because no separator is a digit. That is all that the readers
need to find the parts of a text again (`readDigits?_append`).
-/

namespace Criteria

namespace Calendar

variable {least most value : Nat} {year : Int} {chars digits gap rest written : List Char}

/-! ### Numbers -/

/-- A run of decimal digits, at least `least` and at most `most` of them. -/
structure IsRun (least most : Nat) (run : List Char) : Prop where
  digits : ∀ c ∈ run, c.isDigit = true
  least_le : least ≤ run.length
  le_most : run.length ≤ most

/-- A number of at most two digits behind blanks. -/
inductive IsNumber : List Char → Nat → Prop
  | intro {gap digits : List Char} (blank : Text.IsGap gap) (run : IsRun 1 2 digits) :
    IsNumber (gap ++ digits) (Text.decimal digits)

/-- A year behind blanks: at most four digits, or a sign and any number of digits. -/
inductive IsYear : List Char → Int → Prop
  | unsigned {gap digits : List Char} (blank : Text.IsGap gap) (run : IsRun 1 4 digits) :
    IsYear (gap ++ digits) (Text.decimal digits)
  | positive {gap digits : List Char} (blank : Text.IsGap gap)
      (run : IsRun 1 digits.length digits) :
    IsYear (gap ++ '+' :: digits) (Text.decimal digits)
  | negative {gap digits : List Char} (blank : Text.IsGap gap)
      (run : IsRun 1 digits.length digits) :
    IsYear (gap ++ '-' :: digits) (-(Text.decimal digits : Int))

/-- The fraction of a second: nothing, or a point and at least one digit. -/
inductive IsFraction : List Char → Prop
  | none : IsFraction []
  | digits {digits : List Char} (run : IsRun 1 digits.length digits) : IsFraction ('.' :: digits)

theorem IsRun.of_le {least' most' : Nat} (h : IsRun least most digits) (hleast : least' ≤ least)
    (hmost : most ≤ most') : IsRun least' most' digits :=
  ⟨h.digits, hleast.trans h.least_le, h.le_most.trans hmost⟩

theorem isBlank_of_isDigit {c : Char} (h : c.isDigit = true) : Text.isBlank c = false := by
  simp only [Char.isDigit, Bool.and_eq_true, decide_eq_true_eq] at h
  have hlow : 48 ≤ c.toNat := h.1
  have hhigh : c.toNat ≤ 57 := h.2
  simp only [Text.isBlank, Bool.or_eq_false_iff, Bool.and_eq_false_iff, decide_eq_false_iff_not]
  omega

theorem IsRun.length_eq (h : IsRun most most digits) : digits.length = most :=
  Nat.le_antisymm h.le_most h.least_le

/-- The digits that are read are those that the text starts with. -/
theorem readDigits?_eq_some (h : readDigits? most chars = some (digits, rest)) :
    chars = digits ++ rest ∧ IsRun 1 most digits := by
  unfold readDigits? at h
  dsimp only at h
  split at h
  · cases h
  · next hne =>
    obtain ⟨rfl, rfl⟩ := Prod.mk.inj (Option.some.inj h)
    have hinitial : (chars.take most).takeWhile Char.isDigit <+: chars :=
      (List.takeWhile_prefix _).trans (List.take_prefix most chars)
    refine ⟨(List.prefix_iff_eq_append.1 hinitial).symm, ?_, ?_, ?_⟩
    · exact fun c hc => List.mem_takeWhile_imp hc
    · exact List.length_pos_iff.2 (by simpa using hne)
    · exact (List.takeWhile_prefix _).length_le.trans (List.length_take_le most chars)

/-- Digits are read up to where they end. -/
theorem readDigits?_append (h : IsRun 1 most digits) (hrest : Text.Ends Char.isDigit rest) :
    readDigits? most (digits ++ rest) = some (digits, rest) := by
  have hdigits : ((digits ++ rest).take most).takeWhile Char.isDigit = digits := by
    rw [List.take_append, List.take_of_length_le h.le_most,
      Text.takeWhile_append h.digits (hrest.of_initial (List.take_prefix _ _))]
  have hne : digits ≠ [] := List.length_pos_iff.1 h.least_le
  unfold readDigits?
  rw [hdigits]
  dsimp only
  rw [if_neg (by simpa using hne), List.drop_left]

/-- Where the number of digits has no bound, all of them are read. -/
theorem readDigits?_all (h : IsRun 1 digits.length digits) (hrest : Text.Ends Char.isDigit rest) :
    readDigits? (digits ++ rest).length (digits ++ rest) = some (digits, rest) := by
  have hmost : digits.length ≤ (digits ++ rest).length := by
    rw [List.length_append]
    exact Nat.le_add_right _ _
  exact readDigits?_append (h.of_le le_rfl hmost) hrest

/-- A digit is where the blanks end. -/
theorem skipBlanks_run (hgap : Text.IsGap gap) (hrun : IsRun 1 most digits) (rest : List Char) :
    skipBlanks (gap ++ digits ++ rest) = digits ++ rest := by
  obtain ⟨c, digits, rfl⟩ := List.exists_cons_of_length_pos hrun.least_le
  have hdigit : c.isDigit = true := hrun.digits c List.mem_cons_self
  have hends : Text.Ends Text.isBlank (c :: digits ++ rest) :=
    Text.ends_cons.2 (isBlank_of_isDigit hdigit)
  rw [List.append_assoc, skipBlanks, Text.dropWhile_append hgap hends]

/-- A sign is where the blanks end. -/
theorem skipBlanks_sign {sign : Char} (hgap : Text.IsGap gap) (hsign : Text.isBlank sign = false)
    (digits rest : List Char) :
    skipBlanks (gap ++ sign :: digits ++ rest) = sign :: (digits ++ rest) := by
  have hends : Text.Ends Text.isBlank (sign :: (digits ++ rest)) := Text.ends_cons.2 hsign
  rw [List.append_assoc, List.cons_append, skipBlanks, Text.dropWhile_append hgap hends]

/-- A text is the blanks that it starts with and what is left behind them. -/
theorem exists_skipBlanks (chars : List Char) :
    ∃ gap, Text.IsGap gap ∧ chars = gap ++ skipBlanks chars :=
  ⟨chars.takeWhile Text.isBlank, fun _ hc => List.mem_takeWhile_imp hc,
    List.takeWhile_append_dropWhile.symm⟩

theorem readNumber?_eq_some (h : readNumber? chars = some (value, rest)) :
    ∃ written, chars = written ++ rest ∧ IsNumber written value := by
  obtain ⟨⟨digits, rest'⟩, hdigits, hvalue⟩ := Option.map_eq_some_iff.1 h
  obtain ⟨rfl, rfl⟩ := Prod.mk.inj hvalue
  obtain ⟨hchars, hrun⟩ := readDigits?_eq_some hdigits
  obtain ⟨gap, hgap, hskip⟩ := exists_skipBlanks chars
  refine ⟨gap ++ digits, ?_, .intro hgap hrun⟩
  rw [List.append_assoc, ← hchars, ← hskip]

theorem readNumber?_append (h : IsNumber written value) (hrest : Text.Ends Char.isDigit rest) :
    readNumber? (written ++ rest) = some (value, rest) := by
  obtain @⟨gap, digits, hgap, hrun⟩ := h
  have hskip : skipBlanks (gap ++ digits ++ rest) = digits ++ rest := skipBlanks_run hgap hrun rest
  rw [readNumber?, hskip, readDigits?_append hrun hrest]
  rfl

theorem readYear?_eq_some (h : readYear? chars = some (year, rest)) :
    ∃ written, chars = written ++ rest ∧ IsYear written year := by
  obtain ⟨gap, hgap, hskip⟩ := exists_skipBlanks chars
  unfold readYear? at h
  split at h
  · next signed hsigned =>
    obtain ⟨⟨digits, rest'⟩, hdigits, hvalue⟩ := Option.map_eq_some_iff.1 h
    obtain ⟨rfl, rfl⟩ := Prod.mk.inj hvalue
    obtain ⟨rfl, hrun⟩ := readDigits?_eq_some hdigits
    refine ⟨gap ++ '+' :: digits, ?_, .positive hgap ⟨hrun.digits, hrun.least_le, le_rfl⟩⟩
    rw [hskip, hsigned, List.append_assoc, List.cons_append]
  · next signed hsigned =>
    obtain ⟨⟨digits, rest'⟩, hdigits, hvalue⟩ := Option.map_eq_some_iff.1 h
    obtain ⟨rfl, rfl⟩ := Prod.mk.inj hvalue
    obtain ⟨rfl, hrun⟩ := readDigits?_eq_some hdigits
    refine ⟨gap ++ '-' :: digits, ?_, .negative hgap ⟨hrun.digits, hrun.least_le, le_rfl⟩⟩
    rw [hskip, hsigned, List.append_assoc, List.cons_append]
  · obtain ⟨⟨digits, rest'⟩, hdigits, hvalue⟩ := Option.map_eq_some_iff.1 h
    obtain ⟨rfl, rfl⟩ := Prod.mk.inj hvalue
    obtain ⟨hchars, hrun⟩ := readDigits?_eq_some hdigits
    refine ⟨gap ++ digits, ?_, .unsigned hgap hrun⟩
    rw [List.append_assoc, ← hchars, ← hskip]

theorem readYear?_append (h : IsYear written year) (hrest : Text.Ends Char.isDigit rest) :
    readYear? (written ++ rest) = some (year, rest) := by
  cases h with
  | @unsigned gap digits hgap hrun =>
    have hskip : skipBlanks (gap ++ digits ++ rest) = digits ++ rest :=
      skipBlanks_run hgap hrun rest
    -- the text goes on with a digit, so that neither sign is there
    obtain ⟨c, more, rfl⟩ := List.exists_cons_of_length_pos hrun.least_le
    have hdigit : c.isDigit = true := hrun.digits c List.mem_cons_self
    unfold readYear?
    rw [hskip]
    split
    · next heq =>
      obtain rfl : c = '+' := (List.cons.inj heq).1
      cases hdigit
    · next heq =>
      obtain rfl : c = '-' := (List.cons.inj heq).1
      cases hdigit
    · rw [readDigits?_append hrun hrest]
      rfl
  | @positive gap digits hgap hrun =>
    rw [readYear?, skipBlanks_sign hgap rfl]
    change (readDigits? (digits ++ rest).length (digits ++ rest)).map _ = _
    rw [readDigits?_all hrun hrest]
    rfl
  | @negative gap digits hgap hrun =>
    rw [readYear?, skipBlanks_sign hgap rfl]
    change (readDigits? (digits ++ rest).length (digits ++ rest)).map _ = _
    rw [readDigits?_all hrun hrest]
    rfl

theorem readChar?_eq_some {c : Char} : readChar? c chars = some rest ↔ chars = c :: rest := by
  cases chars with
  | nil => simp [readChar?]
  | cons d chars => simp [readChar?]

theorem readFraction?_eq_nil : readFraction? chars = some [] ↔ IsFraction chars := by
  constructor
  · intro h
    unfold readFraction? at h
    split at h
    · next digits =>
      split at h
      · cases h
      · next hne =>
        have hdigits : ∀ c ∈ digits, c.isDigit = true :=
          List.dropWhile_eq_nil_iff.1 (Option.some.inj h)
        rw [List.takeWhile_eq_self_iff.2 hdigits] at hne
        exact .digits ⟨hdigits, List.length_pos_iff.2 (by simpa using hne), le_rfl⟩
    · cases h
      exact .none
  · intro h
    cases h with
    | none => rfl
    | @digits digits hrun =>
      have hne : digits ≠ [] := List.length_pos_iff.1 hrun.least_le
      rw [readFraction?, List.takeWhile_eq_self_iff.2 hrun.digits,
        List.dropWhile_eq_nil_iff.2 hrun.digits, if_neg (by simpa using hne)]

/-! ### Dates -/

/-- A date as it is accepted: a year, a month and a day between hyphens. -/
inductive IsDateText : List Char → Prop
  | intro {y m d : List Char} {year : Int} {month day : Nat} (isYear : IsYear y year)
      (isMonth : IsNumber m month) (isDay : IsNumber d day)
      (exists_day : Calendar.isDay year month day = true) :
    IsDateText (y ++ '-' :: (m ++ '-' :: d))

/-- A date as it is advertised, `YYYY-MM-DD`: four digits and twice two of them between hyphens,
which denote a day of the calendar. -/
inductive IsPaddedDate : List Char → Prop
  | intro {y m d : List Char} (isYear : IsRun 4 4 y) (isMonth : IsRun 2 2 m) (isDay : IsRun 2 2 d)
      (exists_day : Calendar.isDay (Text.decimal y) (Text.decimal m) (Text.decimal d) = true) :
    IsPaddedDate (y ++ '-' :: (m ++ '-' :: d))

/-- The reader of dates accepts exactly the texts of a date. -/
theorem isDate_iff {text : String} : isDate text = true ↔ IsDateText text.toList := by
  rw [isDate, decide_eq_true_eq]
  constructor
  · intro h
    simp only [readDate?, Option.bind_eq_bind, Option.bind_eq_some_iff] at h
    obtain ⟨⟨year, afterYear⟩, hyear, beforeMonth, hfirst, ⟨month, afterMonth⟩, hmonth, beforeDay,
      hsecond, ⟨day, afterDay⟩, hday, h⟩ := h
    dsimp only at hyear hfirst hmonth hsecond hday h
    split at h
    · next hexists =>
      obtain rfl : afterDay = [] := Option.some.inj h
      obtain ⟨y, htext, hy⟩ := readYear?_eq_some hyear
      obtain ⟨m, rfl, hm⟩ := readNumber?_eq_some hmonth
      obtain ⟨d, rfl, hd⟩ := readNumber?_eq_some hday
      rw [htext, readChar?_eq_some.1 hfirst, readChar?_eq_some.1 hsecond, List.append_nil]
      exact .intro hy hm hd hexists
    · cases h
  · generalize text.toList = chars
    rintro @⟨y, m, d, year, month, day, hy, hm, hd, hexists⟩
    -- a hyphen is no digit, so each number ends in front of it
    have hyphen : ∀ rest, Text.Ends Char.isDigit ('-' :: rest) := fun _ => Text.ends_cons.2 rfl
    have hyear := readYear?_append hy (hyphen (m ++ '-' :: d))
    have hmonth := readNumber?_append hm (hyphen d)
    have hday := readNumber?_append hd (Text.ends_nil _)
    rw [List.append_nil] at hday
    simp [readDate?, readChar?, hyear, hmonth, hday, hexists]

/-! ### Times of day -/

/-- A time of day as it is accepted: an hour, a minute and a second between colons, and behind them
an optional fraction. -/
inductive IsTimeText : List Char → Prop
  | intro {h m s f : List Char} {hour minute second : Nat} (isHour : IsNumber h hour)
      (isMinute : IsNumber m minute) (isSecond : IsNumber s second) (isFraction : IsFraction f)
      (exists_time : isTimeOfDay hour minute second = true) :
    IsTimeText (h ++ ':' :: (m ++ ':' :: (s ++ f)))

/-- A time of day as it is advertised, `HH:MM:SS` with an optional fraction: three times two digits
between colons. -/
inductive IsPaddedTime : List Char → Prop
  | intro {h m s f : List Char} (isHour : IsRun 2 2 h) (isMinute : IsRun 2 2 m)
      (isSecond : IsRun 2 2 s) (isFraction : IsFraction f)
      (exists_time :
        isTimeOfDay (Text.decimal h) (Text.decimal m) (Text.decimal s) = true) :
    IsPaddedTime (h ++ ':' :: (m ++ ':' :: (s ++ f)))

/-- The fraction of a second begins with a point. -/
theorem IsFraction.ends {p : Char → Bool} (h : IsFraction rest) (hpoint : p '.' = false) :
    Text.Ends p rest := by
  cases h with
  | none => exact Text.ends_nil p
  | digits _ => exact Text.ends_cons.2 hpoint

/-- The reader of times accepts exactly the texts of a time of day. -/
theorem isTime_iff {text : String} : isTime text = true ↔ IsTimeText text.toList := by
  rw [isTime, decide_eq_true_eq]
  constructor
  · intro h
    simp only [readTime?, Option.bind_eq_bind, Option.bind_eq_some_iff] at h
    obtain ⟨⟨hour, afterHour⟩, hhour, beforeMinute, hfirst, ⟨minute, afterMinute⟩, hminute,
      beforeSecond, hsecond, ⟨second, afterSecond⟩, hseconds, afterFraction, hfraction, h⟩ := h
    dsimp only at hhour hfirst hminute hsecond hseconds hfraction h
    split at h
    · next hexists =>
      obtain rfl : afterFraction = [] := Option.some.inj h
      obtain ⟨h, htext, hh⟩ := readNumber?_eq_some hhour
      obtain ⟨m, rfl, hm⟩ := readNumber?_eq_some hminute
      obtain ⟨s, rfl, hs⟩ := readNumber?_eq_some hseconds
      rw [htext, readChar?_eq_some.1 hfirst, readChar?_eq_some.1 hsecond]
      exact .intro hh hm hs (readFraction?_eq_nil.1 hfraction) hexists
    · cases h
  · generalize text.toList = chars
    rintro @⟨h, m, s, f, hour, minute, second, hh, hm, hs, hf, hexists⟩
    -- neither a colon nor the point of a fraction is a digit
    have colon : ∀ rest, Text.Ends Char.isDigit (':' :: rest) := fun _ => Text.ends_cons.2 rfl
    have hhour := readNumber?_append hh (colon (m ++ ':' :: (s ++ f)))
    have hminute := readNumber?_append hm (colon (s ++ f))
    have hsecond := readNumber?_append hs (hf.ends (p := Char.isDigit) rfl)
    have hfraction := readFraction?_eq_nil.2 hf
    simp [readTime?, readChar?, hhour, hminute, hsecond, hfraction, hexists]

/-! ### The advertised forms -/

/-- A text has no blanks and no sign in front. -/
structure IsPlain (chars : List Char) : Prop where
  solid : ∀ c ∈ chars, Text.isBlank c = false
  unsigned : ∀ c ∈ chars.head?, c ≠ '+' ∧ c ≠ '-'

theorem IsRun.isNumber (h : IsRun 1 2 digits) : IsNumber digits (Text.decimal digits) :=
  @IsNumber.intro [] digits nofun h

theorem IsRun.isYear (h : IsRun 1 4 digits) : IsYear digits (Text.decimal digits) :=
  @IsYear.unsigned [] digits nofun h

theorem IsRun.solid (h : IsRun least most digits) : ∀ c ∈ digits, Text.isBlank c = false :=
  fun c hc => isBlank_of_isDigit (h.digits c hc)

/-- A text without blanks that begins with a digit has no sign in front. -/
theorem IsRun.isPlain (h : IsRun 1 most digits)
    (hsolid : ∀ c ∈ digits ++ rest, Text.isBlank c = false) : IsPlain (digits ++ rest) := by
  refine ⟨hsolid, ?_⟩
  obtain ⟨c, more, rfl⟩ := List.exists_cons_of_length_pos h.least_le
  have hdigit : c.isDigit = true := h.digits c List.mem_cons_self
  rintro _ ⟨⟩
  constructor
  · rintro rfl
    cases hdigit
  · rintro rfl
    cases hdigit

theorem IsFraction.solid (h : IsFraction rest) : ∀ c ∈ rest, Text.isBlank c = false := by
  cases h with
  | none => exact List.forall_mem_nil _
  | digits run => exact List.forall_mem_cons.2 ⟨rfl, run.solid⟩

theorem IsNumber.isRun (h : IsNumber written value)
    (hsolid : ∀ c ∈ written, Text.isBlank c = false) :
    IsRun 1 2 written ∧ value = Text.decimal written := by
  obtain ⟨hgap, hrun⟩ := h
  obtain rfl := hgap.eq_nil hsolid
  exact ⟨hrun, rfl⟩

theorem IsYear.isRun (h : IsYear written year) (hplain : IsPlain (written ++ rest)) :
    IsRun 1 4 written ∧ year = Text.decimal written := by
  have hsolid : ∀ c ∈ written, Text.isBlank c = false :=
    fun c hc => hplain.solid c (List.mem_append_left rest hc)
  cases h with
  | unsigned hgap hrun =>
    obtain rfl := hgap.eq_nil hsolid
    exact ⟨hrun, rfl⟩
  | positive hgap _ =>
    obtain rfl := hgap.eq_nil hsolid
    exact absurd rfl (hplain.unsigned '+' rfl).1
  | negative hgap _ =>
    obtain rfl := hgap.eq_nil hsolid
    exact absurd rfl (hplain.unsigned '-' rfl).2

/-- **The advertised form of dates** is what is left of the accepted one if there are no blanks and
no sign, and no digit is missing. -/
theorem isPaddedDate_iff :
    IsPaddedDate chars ↔ IsDateText chars ∧ IsPlain chars ∧ chars.length = 10 := by
  constructor
  · rintro @⟨y, m, d, hy, hm, hd, hexists⟩
    have hyear : IsRun 1 4 y := hy.of_le (by decide) le_rfl
    have hmonth : IsRun 1 2 m := hm.of_le (by decide) le_rfl
    have hday : IsRun 1 2 d := hd.of_le (by decide) le_rfl
    have hsolid : ∀ c ∈ y ++ '-' :: (m ++ '-' :: d), Text.isBlank c = false := by
      simp only [List.forall_mem_append, List.forall_mem_cons]
      exact ⟨hy.solid, rfl, hm.solid, rfl, hd.solid⟩
    refine ⟨.intro hyear.isYear hmonth.isNumber hday.isNumber hexists, hyear.isPlain hsolid, ?_⟩
    simp only [List.length_append, List.length_cons, hy.length_eq, hm.length_eq, hd.length_eq]
  · rintro ⟨@⟨y, m, d, year, month, day, hy, hm, hd, hexists⟩, hplain, hlength⟩
    have hsolid := hplain.solid
    simp only [List.forall_mem_append, List.forall_mem_cons] at hsolid
    obtain ⟨-, -, hsolidMonth, -, hsolidDay⟩ := hsolid
    obtain ⟨hyear, rfl⟩ := hy.isRun hplain
    obtain ⟨hmonth, rfl⟩ := hm.isRun hsolidMonth
    obtain ⟨hday, rfl⟩ := hd.isRun hsolidDay
    -- ten characters are as many as the three numbers can have, with the hyphens between them
    have hyearMost := hyear.le_most
    have hmonthMost := hmonth.le_most
    have hdayMost := hday.le_most
    simp only [List.length_append, List.length_cons] at hlength
    have hfour : IsRun 4 4 y := ⟨hyear.digits, by omega, hyearMost⟩
    have htwo : IsRun 2 2 m := ⟨hmonth.digits, by omega, hmonthMost⟩
    have htwo' : IsRun 2 2 d := ⟨hday.digits, by omega, hdayMost⟩
    exact .intro hfour htwo htwo' hexists

/-- What stands in front of the fraction. -/
def whole (chars : List Char) : List Char := chars.takeWhile (· ≠ '.')

theorem IsRun.ne_point (h : IsRun least most digits) : ∀ c ∈ digits, decide (c ≠ '.') = true := by
  intro c hc
  have hdigit : c.isDigit = true := h.digits c hc
  refine decide_eq_true ?_
  rintro rfl
  cases hdigit

theorem whole_eq {h m s f : List Char} (hh : IsRun 1 2 h) (hm : IsRun 1 2 m) (hs : IsRun 1 2 s)
    (hf : IsFraction f) :
    whole (h ++ ':' :: (m ++ ':' :: (s ++ f))) = h ++ ':' :: (m ++ ':' :: s) := by
  have hpoint : ∀ c ∈ h ++ ':' :: (m ++ ':' :: s), decide (c ≠ '.') = true := by
    simp only [List.forall_mem_append, List.forall_mem_cons]
    exact ⟨hh.ne_point, rfl, hm.ne_point, rfl, hs.ne_point⟩
  have hassoc : h ++ ':' :: (m ++ ':' :: (s ++ f)) = h ++ ':' :: (m ++ ':' :: s) ++ f := by
    simp only [List.append_assoc, List.cons_append]
  rw [whole, hassoc, Text.takeWhile_append hpoint (hf.ends rfl)]

/-- **The advertised form of times** is what is left of the accepted one if there are no blanks, and
no digit is missing in front of the fraction. -/
theorem isPaddedTime_iff :
    IsPaddedTime chars ↔ IsTimeText chars ∧ IsPlain chars ∧ (whole chars).length = 8 := by
  constructor
  · rintro @⟨h, m, s, f, hh, hm, hs, hf, hexists⟩
    have hhour : IsRun 1 2 h := hh.of_le (by decide) le_rfl
    have hminute : IsRun 1 2 m := hm.of_le (by decide) le_rfl
    have hsecond : IsRun 1 2 s := hs.of_le (by decide) le_rfl
    have hsolid : ∀ c ∈ h ++ ':' :: (m ++ ':' :: (s ++ f)), Text.isBlank c = false := by
      simp only [List.forall_mem_append, List.forall_mem_cons]
      exact ⟨hh.solid, rfl, hm.solid, rfl, hs.solid, hf.solid⟩
    refine ⟨.intro hhour.isNumber hminute.isNumber hsecond.isNumber hf hexists,
      hhour.isPlain hsolid, ?_⟩
    rw [whole_eq hhour hminute hsecond hf]
    simp only [List.length_append, List.length_cons, hh.length_eq, hm.length_eq, hs.length_eq]
  · rintro ⟨@⟨h, m, s, f, hour, minute, second, hh, hm, hs, hf, hexists⟩, hplain, hlength⟩
    have hsolid := hplain.solid
    simp only [List.forall_mem_append, List.forall_mem_cons] at hsolid
    obtain ⟨hsolidHour, -, hsolidMinute, -, hsolidSecond, -⟩ := hsolid
    obtain ⟨hhour, rfl⟩ := hh.isRun hsolidHour
    obtain ⟨hminute, rfl⟩ := hm.isRun hsolidMinute
    obtain ⟨hsecond, rfl⟩ := hs.isRun hsolidSecond
    -- eight characters are as many as the three numbers can have, with the colons between them
    have hhourMost := hhour.le_most
    have hminuteMost := hminute.le_most
    have hsecondMost := hsecond.le_most
    rw [whole_eq hhour hminute hsecond hf] at hlength
    simp only [List.length_append, List.length_cons] at hlength
    have htwo : IsRun 2 2 h := ⟨hhour.digits, by omega, hhourMost⟩
    have htwo' : IsRun 2 2 m := ⟨hminute.digits, by omega, hminuteMost⟩
    have htwo'' : IsRun 2 2 s := ⟨hsecond.digits, by omega, hsecondMost⟩
    exact .intro htwo htwo' htwo'' hf hexists

end Calendar

namespace Operand

variable {registry : Registry} {limits : Limits} {field : Field} {op : Operator}

theorem checkValue_date {text : String} :
    checkValue registry .date (.string text) = .ok () ↔ Calendar.IsDateText text.toList := by
  rw [← Calendar.isDate_iff]
  exact check_bind_eq_ok.trans ((and_iff_right rfl).trans ite_eq_ok)

theorem checkValue_time {text : String} :
    checkValue registry .time (.string text) = .ok () ↔ Calendar.IsTimeText text.toList := by
  rw [← Calendar.isTime_iff]
  exact check_bind_eq_ok.trans ((and_iff_right rfl).trans ite_eq_ok)

/-- The texts of a range are checked one by one. -/
theorem check_between {low high : String} :
    check registry limits field .between (.array [.string low, .string high]) = .ok () ↔
      checkValue registry field.kind (.string low) = .ok () ∧
        checkValue registry field.kind (.string high) = .ok () := by
  rw [check_range rfl]
  constructor
  · rintro ⟨_, _, hbounds, hlow, hhigh⟩
    cases hbounds
    exact ⟨hlow, hhigh⟩
  · rintro ⟨hlow, hhigh⟩
    exact ⟨_, _, rfl, hlow, hhigh⟩

/-- **Dates and times in operands.** On a field of dates, an operator that takes a single value
takes exactly the texts of a date, and so do the bounds of a range. The advertised form is the part
of them without blanks and without a sign that has all of its ten characters. On a field of times it
is the part without blanks that has eight characters in front of the fraction. -/
theorem check_temporal (hsingle : op.shape field.kind = .scalar) (hvalue : takesText op = false)
    (text : String) :
    (field.kind = .date →
      (check registry limits field op (.string text) = .ok () ↔
        Calendar.IsDateText text.toList) ∧
      (∀ other,
        check registry limits field .between (.array [.string text, .string other]) = .ok () ↔
          Calendar.IsDateText text.toList ∧ Calendar.IsDateText other.toList) ∧
      (Calendar.IsPaddedDate text.toList ↔
        Calendar.IsDateText text.toList ∧ Calendar.IsPlain text.toList ∧
          text.toList.length = 10)) ∧
    (field.kind = .time →
      (check registry limits field op (.string text) = .ok () ↔
        Calendar.IsTimeText text.toList) ∧
      (∀ other,
        check registry limits field .between (.array [.string text, .string other]) = .ok () ↔
          Calendar.IsTimeText text.toList ∧ Calendar.IsTimeText other.toList) ∧
      (Calendar.IsPaddedTime text.toList ↔
        Calendar.IsTimeText text.toList ∧ Calendar.IsPlain text.toList ∧
          (Calendar.whole text.toList).length = 8)) := by
  constructor
  · intro hkind
    rw [check_scalar hsingle hvalue, hkind]
    refine ⟨checkValue_date, fun other => ?_, Calendar.isPaddedDate_iff⟩
    rw [check_between, hkind]
    exact and_congr checkValue_date checkValue_date
  · intro hkind
    rw [check_scalar hsingle hvalue, hkind]
    refine ⟨checkValue_time, fun other => ?_, Calendar.isPaddedTime_iff⟩
    rw [check_between, hkind]
    exact and_congr checkValue_time checkValue_time

/-- A leap day in the advertised form is accepted, and so is one that is written with a blank and a
single digit, but no day that the calendar does not have. -/
theorem check_temporal_leapDay :
    let field := Field.declare "day" .date
    Operator.gte.shape field.kind = .scalar ∧ takesText .gte = false ∧ field.kind = .date ∧
      check .empty {} field .gte (.string "2024-02-29") = .ok () ∧
      Calendar.IsPaddedDate "2024-02-29".toList ∧
      check .empty {} field .gte (.string "2024- 2-29") = .ok () ∧
      ¬ Calendar.IsPaddedDate "2024- 2-29".toList ∧
      ¬ Calendar.IsDateText "2023-02-29".toList := by
  intro field
  have hdate (text : String) := (@check_temporal .empty {} field .gte rfl rfl text).1 rfl
  have hpadded : check .empty {} field .gte (.string "2024-02-29") = .ok () := by decide +kernel
  have hunpadded : check .empty {} field .gte (.string "2024- 2-29") = .ok () := by decide +kernel
  have hnone : check .empty {} field .gte (.string "2023-02-29") ≠ .ok () := by decide +kernel
  refine ⟨rfl, rfl, rfl, hpadded, ?_, hunpadded, ?_, ?_⟩
  · have hplain : Calendar.IsPlain "2024-02-29".toList :=
      ⟨by simp [Text.isBlank], by simp⟩
    exact (hdate "2024-02-29").2.2.2 ⟨(hdate "2024-02-29").1.1 hpadded, hplain, rfl⟩
  · intro h
    -- the blank is one of its ten characters
    have hsolid := ((hdate "2024- 2-29").2.2.1 h).2.1.solid
    cases hsolid ' ' (by decide)
  · exact fun h => hnone ((hdate "2023-02-29").1.2 h)

/-- A month of one digit is accepted, and so is an hour, although neither text has the advertised
form. -/
theorem check_takes_unpadded :
    (check .empty {} (.declare "day" .date) .eq (.string "2024-1-05") = .ok () ∧
      ¬ Calendar.IsPaddedDate "2024-1-05".toList) ∧
    check .empty {} (.declare "from" .time) .eq (.string "9:30:00") = .ok () ∧
      ¬ Calendar.IsPaddedTime "9:30:00".toList := by
  refine ⟨⟨by decide +kernel, fun h => ?_⟩, by decide +kernel, fun h => ?_⟩
  · cases (Calendar.isPaddedDate_iff.1 h).2.2
  · cases (Calendar.isPaddedTime_iff.1 h).2.2

end Operand

end Criteria
