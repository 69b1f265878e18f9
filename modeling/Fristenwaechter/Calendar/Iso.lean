import Fristenwaechter.Dates

/-!
Owns which texts denote a date, apart from any parser: the calendar and the week forms of
ISO 8601 with four-digit years, each with or without dashes. `date.fromisoformat` reads all
of them, and more.
-/

namespace Fristenwaechter

/-! ### Texts of a date -/

/-- No dash, or one. -/
def Dashing (dash : Str) : Prop :=
  dash = [] ∨ dash = ['-']

/-- The text denotes the date. -/
inductive Date.Denoted : Str → Date → Prop
  /-- `YYYY-MM-DD` or `YYYYMMDD`. -/
  | calendar (date : Date) {dash : Str} (dashing : Dashing dash) :
      Denoted (digits 10 4 date.year ++ dash ++ twoDigits date.month ++ dash ++
        twoDigits date.day) date
  /-- `YYYY-Www-D` or `YYYYWwwD`. -/
  | weekday {date : Date} {year week day : Nat} {dash : Str} (dashing : Dashing dash)
      (isDate : Date.ofIsoWeek? year week day = some date) :
      Denoted (digits 10 4 year ++ dash ++ 'W' :: twoDigits week ++ dash ++ digits 10 1 day) date
  /-- `YYYY-Www` or `YYYYWww`, the Monday of the week. -/
  | week {date : Date} {year week : Nat} {dash : Str} (dashing : Dashing dash)
      (isDate : Date.ofIsoWeek? year week 1 = some date) :
      Denoted (digits 10 4 year ++ dash ++ 'W' :: twoDigits week) date

/-! ### Printed digits -/

namespace Date

theorem digitChar_spec {digit : Nat} (small : digit < 10) :
    ('0' ≤ Nat.digitChar digit ∧ Nat.digitChar digit ≤ '9') ∧
      (Nat.digitChar digit).toNat - 48 = digit ∧ (Nat.digitChar digit).utf8Size = 1 ∧
      Nat.digitChar digit ≠ '-' ∧ Nat.digitChar digit ≠ 'W' := by
  have all : ∀ digit < 10, ('0' ≤ Nat.digitChar digit ∧ Nat.digitChar digit ≤ '9') ∧
      (Nat.digitChar digit).toNat - 48 = digit ∧ (Nat.digitChar digit).utf8Size = 1 ∧
      Nat.digitChar digit ≠ '-' ∧ Nat.digitChar digit ≠ 'W' := by
    decide
  exact all digit small

theorem parseDigits_succ {count value read : Nat} {text rest : Str} {digit : Nat}
    (small : digit < 10)
    (before : parseDigits count value text = some (read, Nat.digitChar digit :: rest)) :
    parseDigits (count + 1) value text = some (read * 10 + digit, rest) := by
  induction count generalizing value text with
  | zero =>
      simp only [parseDigits, Option.some.injEq, Prod.mk.injEq] at before
      obtain ⟨rfl, rfl⟩ := before
      rw [parseDigits, if_pos (digitChar_spec small).1, parseDigits, (digitChar_spec small).2.1]
  | succ count inductionHypothesis =>
      cases text with
      | nil => cases before
      | cons first others =>
          rw [parseDigits] at before ⊢
          split at before
          · rename_i isDigit
            rw [if_pos isDigit]
            exact inductionHypothesis before
          · cases before

theorem parseDigits_digits (width value n : Nat) (rest : Str) :
    parseDigits width value (digits 10 width n ++ rest) =
      some (value * 10 ^ width + n % 10 ^ width, rest) := by
  induction width generalizing n rest with
  | zero => simp [parseDigits, digits, Nat.mod_one]
  | succ width inductionHypothesis =>
      rw [digits, List.append_assoc, List.singleton_append]
      rw [parseDigits_succ (Nat.mod_lt n (by decide)) (inductionHypothesis (n / 10) _),
        Nat.pow_succ', Nat.mod_mul, Nat.mul_left_comm value 10]
      congr 2
      omega

theorem digits_utf8Size (width n : Nat) :
    ((digits 10 width n).map Char.utf8Size).sum = width := by
  induction width generalizing n with
  | zero => rfl
  | succ width inductionHypothesis =>
      simp [digits, inductionHypothesis, (digitChar_spec (Nat.mod_lt n (by decide : 0 < 10))).2.2.1]

theorem digits_head (width n : Nat) :
    ∃ digit < 10, ∃ rest, digits 10 (width + 1) n = Nat.digitChar digit :: rest := by
  induction width generalizing n with
  | zero => exact ⟨n % 10, Nat.mod_lt n (by decide), [], rfl⟩
  | succ width inductionHypothesis =>
      obtain ⟨digit, small, rest, same⟩ := inductionHypothesis (n / 10)
      exact ⟨digit, small, rest ++ [Nat.digitChar (n % 10)], by rw [digits, same]; rfl⟩

/-! ### The parser reads them -/

theorem separator_dashing {dash : Str} (dashing : Dashing dash) {first : Char} {rest : Str}
    (noDash : first ≠ '-') :
    separator (decide (dash ≠ [])) (dash ++ first :: rest) = some (first :: rest) ∧
      decide ((dash ++ first :: rest).head? = some '-') = decide (dash ≠ []) := by
  rcases dashing with rfl | rfl
  · refine ⟨?_, by simp [noDash]⟩
    unfold separator
    split
    · rename_i same
      exact absurd (List.cons.inj same).1 noDash
    · rfl
  · exact ⟨rfl, rfl⟩

theorem parseDigits_printed {width n : Nat} (small : n < 10 ^ width) (rest : Str) :
    parseDigits width 0 (digits 10 width n ++ rest) = some (n, rest) := by
  rw [parseDigits_digits, Nat.zero_mul, Nat.zero_add, Nat.mod_eq_of_lt small]

theorem bounds (date : Date) : date.year < 10 ^ 4 ∧ date.month < 10 ^ 2 ∧ date.day < 10 ^ 2 := by
  obtain ⟨_, year, _, month, _, day⟩ := date.valid
  have short : daysInMonth date.year date.month ≤ 31 := by
    unfold daysInMonth
    split_ifs <;> decide
  omega

theorem ofIsoWeek?_bounds {year week day : Nat} {date : Date}
    (isDate : ofIsoWeek? year week day = some date) :
    year < 10 ^ 4 ∧ week < 10 ^ 2 ∧ day < 10 ^ 1 := by
  unfold ofIsoWeek? at isDate
  split_ifs at isDate
  · simp only [ite_self, reduceCtorEq] at isDate
  · omega

section Texts

variable {dash : Str}

theorem dash_size (dashing : Dashing dash) : (dash.map Char.utf8Size).sum = dash.length := by
  rcases dashing with rfl | rfl <;> decide

theorem length_fits (dashing : Dashing dash) :
    (7 + dash.length = 7 ∨ 7 + dash.length = 8 ∨ 7 + dash.length = 10) ∧
      (8 + 2 * dash.length = 7 ∨ 8 + 2 * dash.length = 8 ∨ 8 + 2 * dash.length = 10) := by
  rcases dashing with rfl | rfl <;> decide

theorem fromIsoFormat_calendar (date : Date) (dashing : Dashing dash) :
    fromIsoFormat (digits 10 4 date.year ++ dash ++ digits 10 2 date.month ++ dash ++
      digits 10 2 date.day) = some date := by
  obtain ⟨year, month, day⟩ := date.bounds
  obtain ⟨first, firstSmall, monthRest, isMonth⟩ := digits_head 1 date.month
  obtain ⟨second, secondSmall, dayRest, isDay⟩ := digits_head 1 date.day
  obtain ⟨_, _, _, firstNoDash, firstNoWeek⟩ := digitChar_spec firstSmall
  obtain ⟨_, _, _, secondNoDash, _⟩ := digitChar_spec secondSmall
  have size : ((digits 10 4 date.year ++ (dash ++ (digits 10 2 date.month ++ (dash ++
      digits 10 2 date.day)))).map Char.utf8Size).sum = 8 + 2 * dash.length := by
    simp only [List.map_append, List.sum_append, digits_utf8Size, dash_size dashing]
    omega
  have beforeMonth := @separator_dashing dash dashing _
    (monthRest ++ (dash ++ digits 10 2 date.day)) firstNoDash
  have beforeDay := @separator_dashing dash dashing _ dayRest secondNoDash
  have readDay := parseDigits_printed day []
  rw [← List.cons_append, ← isMonth] at beforeMonth
  rw [← isDay] at beforeDay
  rw [List.append_nil] at readDay
  simp only [List.append_assoc, fromIsoFormat, size, guard, if_pos (length_fits dashing).2,
    parseDigits_printed year, Option.bind_eq_bind, Option.pure_def, Option.bind_some, beforeMonth]
  split
  · rename_i week isWeek
    rw [isMonth] at isWeek
    exact absurd (List.cons.inj isWeek).1 firstNoWeek
  · simp only [parseDigits_printed month, Option.bind_some, beforeDay, readDay]
    exact dif_pos date.valid

theorem fromIsoFormat_weekday {date : Date} {year week day : Nat} (dashing : Dashing dash)
    (isDate : ofIsoWeek? year week day = some date) :
    fromIsoFormat (digits 10 4 year ++ dash ++ 'W' :: digits 10 2 week ++ dash ++
      digits 10 1 day) = some date := by
  obtain ⟨yearSmall, weekSmall, daySmall⟩ := ofIsoWeek?_bounds isDate
  obtain ⟨first, firstSmall, dayRest, isDay⟩ := digits_head 0 day
  obtain ⟨_, _, _, noDash, _⟩ := digitChar_spec firstSmall
  have size : ((digits 10 4 year ++ (dash ++ ('W' :: digits 10 2 week ++ (dash ++
      digits 10 1 day)))).map Char.utf8Size).sum = 8 + 2 * dash.length := by
    have isOne : 'W'.utf8Size = 1 := by decide
    simp only [List.map_append, List.map_cons, List.sum_append, List.sum_cons, digits_utf8Size,
      dash_size dashing, isOne]
    omega
  have beforeWeek := @separator_dashing dash dashing 'W'
    (digits 10 2 week ++ (dash ++ digits 10 1 day)) (by decide)
  have beforeDay := @separator_dashing dash dashing _ dayRest noDash
  have readDay := parseDigits_printed daySmall []
  rw [← isDay] at beforeDay
  rw [List.append_nil] at readDay
  have more : (dash ++ digits 10 1 day).isEmpty = false := by
    rw [isDay, List.isEmpty_eq_false_iff]
    simp
  rw [← List.cons_append] at beforeWeek
  simp only [List.append_assoc, fromIsoFormat, size, guard, if_pos (length_fits dashing).2,
    parseDigits_printed yearSmall, Option.bind_eq_bind, Option.pure_def, Option.bind_some,
    beforeWeek]
  simp only [List.cons_append, parseDigits_printed weekSmall, Option.bind_some, more,
    Bool.false_eq_true, if_false, beforeDay, readDay, isDate]

theorem fromIsoFormat_week {date : Date} {year week : Nat} (dashing : Dashing dash)
    (isDate : ofIsoWeek? year week 1 = some date) :
    fromIsoFormat (digits 10 4 year ++ dash ++ 'W' :: digits 10 2 week) = some date := by
  obtain ⟨yearSmall, weekSmall, _⟩ := ofIsoWeek?_bounds isDate
  have size : ((digits 10 4 year ++ (dash ++ 'W' :: digits 10 2 week)).map
      Char.utf8Size).sum = 7 + dash.length := by
    have isOne : 'W'.utf8Size = 1 := by decide
    simp only [List.map_append, List.map_cons, List.sum_append, List.sum_cons, digits_utf8Size,
      dash_size dashing, isOne]
    omega
  have beforeWeek := @separator_dashing dash dashing 'W' (digits 10 2 week) (by decide)
  have readWeek := parseDigits_printed weekSmall []
  rw [List.append_nil] at readWeek
  simp only [List.append_assoc, fromIsoFormat, size, guard, if_pos (length_fits dashing).1,
    parseDigits_printed yearSmall, Option.bind_eq_bind, Option.pure_def, Option.bind_some,
    beforeWeek, readWeek, List.isEmpty_nil, if_true, isDate]

end Texts

/-- What denotes a date is read as this date. -/
theorem Denoted.parsed {text : Str} {date : Date} (denoted : Denoted text date) :
    fromIsoFormat text = some date := by
  cases denoted with
  | calendar _ dashing => exact fromIsoFormat_calendar date dashing
  | weekday dashing isDate => exact fromIsoFormat_weekday dashing isDate
  | week dashing isDate => exact fromIsoFormat_week dashing isDate

end Date

end Fristenwaechter
