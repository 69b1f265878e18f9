import Mathlib.Order.Monotone.Basic
import Fristenwaechter.Sweeps.Calendar

/-!
Owns month arithmetic: dates are ordered by their month, then by their day, and
`add_months` moves the month and clamps the day. Everything else about it follows from
these two facts.
-/

namespace Fristenwaechter

/-! ### The months of the calendar -/

/-- Months since the first of year 0. -/
def Date.monthIndex (date : Date) : Nat :=
  12 * date.year + (date.month - 1)

/-- Days before a month. -/
def monthStart (index : Nat) : Nat :=
  Date.daysBeforeYear (index / 12) + Date.daysBeforeMonth (index / 12) (index % 12 + 1)

/-- The length of a month. -/
def monthLength (index : Nat) : Nat :=
  daysInMonth (index / 12) (index % 12 + 1)

theorem daysInMonth_pos (year month : Nat) : 28 ≤ daysInMonth year month := by
  unfold daysInMonth
  split
  · split <;> decide
  · split <;> decide

theorem Date.monthIndex_cast (date : Date) :
    ((date.monthIndex : Nat) : Int) = 12 * date.year + date.month - 1 := by
  have low := date.valid.2.2.1
  unfold Date.monthIndex
  omega

theorem Date.monthIndex_year (date : Date) : date.monthIndex / 12 = date.year := by
  obtain ⟨_, _, low, high, _⟩ := date.valid
  unfold Date.monthIndex
  omega

theorem Date.monthIndex_month (date : Date) : date.monthIndex % 12 + 1 = date.month := by
  obtain ⟨_, _, low, high, _⟩ := date.valid
  unfold Date.monthIndex
  omega

theorem Date.monthLength_eq (date : Date) :
    monthLength date.monthIndex = daysInMonth date.year date.month := by
  rw [monthLength, date.monthIndex_year, date.monthIndex_month]

theorem Date.day_bounds (date : Date) : 1 ≤ date.day ∧ date.day ≤ monthLength date.monthIndex := by
  obtain ⟨_, _, _, _, low, high⟩ := date.valid
  rw [date.monthLength_eq]
  exact ⟨low, high⟩

theorem Date.toOrdinal_eq (date : Date) :
    date.toOrdinal = monthStart date.monthIndex + date.day := by
  rw [Date.toOrdinal, monthStart, date.monthIndex_year, date.monthIndex_month]

theorem Date.eq_of_monthIndex {first second : Date} (month : first.monthIndex = second.monthIndex)
    (day : first.day = second.day) : first = second := by
  have year : first.year = second.year := by
    rw [← first.monthIndex_year, ← second.monthIndex_year, month]
  have monthOfYear : first.month = second.month := by
    rw [← first.monthIndex_month, ← second.monthIndex_month, month]
  obtain ⟨year₁, month₁, day₁, valid₁⟩ := first
  obtain ⟨year₂, month₂, day₂, valid₂⟩ := second
  cases year
  cases monthOfYear
  cases day
  rfl

theorem isLeap_iff {year : Nat} :
    isLeap year = true ↔ year % 4 = 0 ∧ (year % 100 ≠ 0 ∨ year % 400 = 0) := by
  rw [isLeap, decide_eq_true_eq]

theorem daysBeforeYear_succ {year : Nat} (positive : 1 ≤ year) :
    Date.daysBeforeYear (year + 1) =
      Date.daysBeforeYear year + 365 + if isLeap year then 1 else 0 := by
  obtain ⟨y, rfl⟩ : ∃ y, year = y + 1 := ⟨year - 1, by omega⟩
  rw [Date.daysBeforeYear, Date.daysBeforeYear, Nat.add_sub_cancel, Nat.add_sub_cancel]
  have leap := @isLeap_iff (y + 1)
  -- each cycle is one longer exactly when the year ends it
  have fours : (y + 1) / 4 = y / 4 + if (y + 1) % 4 = 0 then 1 else 0 := by split <;> omega
  have hundreds : (y + 1) / 100 = y / 100 + if (y + 1) % 100 = 0 then 1 else 0 := by
    split <;> omega
  have cycles : (y + 1) / 400 = y / 400 + if (y + 1) % 400 = 0 then 1 else 0 := by
    split <;> omega
  have century : (y + 1) % 100 = 0 → (y + 1) % 4 = 0 := by omega
  have cycle : (y + 1) % 400 = 0 → (y + 1) % 100 = 0 := by omega
  have fewer : y / 100 ≤ y / 4 := by omega
  rw [fours, hundreds, cycles]
  by_cases isFour : (y + 1) % 4 = 0
  · by_cases isHundred : (y + 1) % 100 = 0
    · by_cases isCycle : (y + 1) % 400 = 0
      · rw [if_pos isFour, if_pos isHundred, if_pos isCycle,
          if_pos (leap.mpr ⟨isFour, .inr isCycle⟩)]
        omega
      · rw [if_pos isFour, if_pos isHundred, if_neg isCycle, if_neg (by rw [leap]; tauto)]
        omega
    · rw [if_pos isFour, if_neg isHundred, if_neg fun isCycle => isHundred (cycle isCycle),
        if_pos (leap.mpr ⟨isFour, .inl isHundred⟩)]
      omega
  · rw [if_neg isFour, if_neg fun isHundred => isFour (century isHundred),
      if_neg fun isCycle => isFour (century (cycle isCycle)), if_neg (by rw [leap]; tauto)]
    omega

theorem monthStart_succ {index : Nat} (positive : 12 ≤ index) :
    monthStart (index + 1) = monthStart index + monthLength index := by
  unfold monthStart monthLength
  obtain ⟨year, month, inYear, rfl⟩ : ∃ year month, month < 12 ∧ index = 12 * year + month :=
    ⟨index / 12, index % 12, Nat.mod_lt _ (by decide), (Nat.div_add_mod index 12).symm⟩
  have isYear : (12 * year + month) / 12 = year := by omega
  have isMonth : (12 * year + month) % 12 = month := by omega
  rw [isYear, isMonth]
  by_cases last : month = 11
  · subst last
    have nextYear : (12 * year + 11 + 1) / 12 = year + 1 := by omega
    have january : (12 * year + 11 + 1) % 12 = 0 := by omega
    rw [nextYear, january, daysBeforeYear_succ (by omega),
      daysBeforeMonth_cases _ (by decide) (by decide),
      daysBeforeMonth_cases _ (by decide) (by decide)]
    simp only [daysInMonth]
    cases isLeap year <;> simp
  · have sameYear : (12 * year + month + 1) / 12 = year := by omega
    have nextMonth : (12 * year + month + 1) % 12 = month + 1 := by omega
    rw [sameYear, nextMonth]
    simp only [Date.daysBeforeMonth, Nat.add_sub_cancel]
    rw [List.range_succ, List.map_append, List.sum_append]
    simp [Nat.add_assoc]

theorem monthStart_later {first second : Nat} (positive : 12 ≤ first) (later : first < second) :
    monthStart first + monthLength first ≤ monthStart second := by
  rw [← monthStart_succ positive]
  refine Nat.le_induction (Nat.le_refl _) (fun index inRange inductionHypothesis => ?_) second later
  rw [monthStart_succ (show 12 ≤ index by omega)]
  omega

theorem Date.lt_of_monthIndex {first second : Date} (later : first.monthIndex < second.monthIndex) :
    first.toOrdinal < second.toOrdinal := by
  have year := first.valid.1
  have start := monthStart_later (by unfold Date.monthIndex; omega) later
  rw [first.toOrdinal_eq, second.toOrdinal_eq]
  have firstDay := first.day_bounds
  have secondDay := second.day_bounds
  omega

theorem Date.monthIndex_mono {first second : Date} (before : first ≤ second) :
    first.monthIndex ≤ second.monthIndex := by
  by_contra later
  have after := Date.lt_of_monthIndex (Nat.lt_of_not_le later)
  exact absurd before (Nat.not_le_of_lt after)

theorem Date.le_iff_day {first second : Date} (month : first.monthIndex = second.monthIndex) :
    first ≤ second ↔ first.day ≤ second.day := by
  change first.toOrdinal ≤ second.toOrdinal ↔ _
  rw [first.toOrdinal_eq, second.toOrdinal_eq, month]
  omega

theorem plusDays_ordinal {date later : Date} {days : Int}
    (moved : date.plusDays days = some later) : (later.toOrdinal : Int) = date.toOrdinal + days :=
  toOrdinal_ofOrdinal moved

theorem Date.le_of_month_day {first second : Date} (month : first.monthIndex ≤ second.monthIndex)
    (day : first.monthIndex = second.monthIndex → first.day ≤ second.day) : first ≤ second := by
  rcases Nat.lt_or_eq_of_le month with earlier | same
  · exact Nat.le_of_lt (Date.lt_of_monthIndex earlier)
  · exact (Date.le_iff_day same).mpr (day same)

/-! ### `add_months` -/

/-- The year of a month index lies in the range of the calendar. -/
def MonthInRange (index : Int) : Prop :=
  1 ≤ index / 12 ∧ index / 12 ≤ 9999

theorem addMonths_eq_some {date result : Date} {months : Int} :
    addMonths date months = some result ↔
      (result.monthIndex : Int) = date.monthIndex + months ∧
        result.day = min date.day (monthLength result.monthIndex) := by
  obtain ⟨_, _, low, high, lowDay, highDay⟩ := date.valid
  have index := date.monthIndex_cast
  constructor
  · intro shifted
    unfold addMonths at shifted
    dsimp only at shifted
    split at shifted
    swap
    · cases shifted
    obtain ⟨year, month, day⟩ := of?_eq_some shifted
    constructor
    · rw [index]
      unfold Date.monthIndex
      omega
    · rw [day, result.monthLength_eq, year, month]
  · rintro ⟨month, day⟩
    obtain ⟨firstYear, lastYear, lowMonth, highMonth, lowNew, highNew⟩ := result.valid
    have isIndex := result.monthIndex_cast
    rw [isIndex, index] at month
    have isYear : (date.year : Int) + ((date.month : Int) - 1 + months) / 12 = result.year := by
      omega
    have isMonth : (((date.month : Int) - 1 + months) % 12).toNat + 1 = result.month := by omega
    unfold addMonths
    dsimp only
    rw [isYear, isMonth, if_pos (by omega), Int.toNat_natCast]
    have isDay : min date.day (daysInMonth result.year result.month) = result.day := by
      rw [day, result.monthLength_eq]
    rw [isDay, Date.of?, dif_pos result.valid]

theorem addMonths_none {date : Date} {months : Int} :
    addMonths date months = none ↔ ¬ MonthInRange (date.monthIndex + months) := by
  obtain ⟨_, _, low, high, lowDay, highDay⟩ := date.valid
  have index := date.monthIndex_cast
  have quotient : ((date.monthIndex : Int) + months) / 12 =
      date.year + ((date.month : Int) - 1 + months) / 12 := by
    rw [index]
    omega
  unfold MonthInRange
  rw [quotient]
  unfold addMonths
  dsimp only
  generalize (date.year : Int) + ((date.month : Int) - 1 + months) / 12 = year
  have inYear : (((date.month : Int) - 1 + months) % 12).toNat + 1 ≤ 12 := by omega
  generalize (((date.month : Int) - 1 + months) % 12).toNat = month at inYear
  split
  · rename_i positive
    have long := daysInMonth_pos year.toNat (month + 1)
    simp only [Date.of?, dite_eq_right_iff, reduceCtorEq, imp_false, positive, true_and]
    unfold IsDate
    omega
  · rename_i early
    simp [early]

theorem addMonths_isSome {date : Date} {months : Int}
    (inRange : MonthInRange (date.monthIndex + months)) :
    ∃ result, addMonths date months = some result := by
  cases shifted : addMonths date months with
  | none => exact absurd inRange (addMonths_none.mp shifted)
  | some result => exact ⟨result, rfl⟩

variable {date other first second result there back direct : Date} {months more : Int}

theorem addMonths_mono (before : first ≤ second) (shifted : addMonths first months = some result)
    (shiftedToo : addMonths second months = some other) : result ≤ other := by
  obtain ⟨month, day⟩ := addMonths_eq_some.mp shifted
  obtain ⟨otherMonth, otherDay⟩ := addMonths_eq_some.mp shiftedToo
  have later := Date.monthIndex_mono before
  refine Date.le_of_month_day (by omega) fun same => ?_
  have sameMonth : first.monthIndex = second.monthIndex := by omega
  have days := (Date.le_iff_day sameMonth).mp before
  rw [day, otherDay, same]
  omega

theorem addMonths_mono_months (fewer : months ≤ more)
    (shifted : addMonths date months = some result)
    (further : addMonths date more = some other) : result ≤ other := by
  obtain ⟨month, day⟩ := addMonths_eq_some.mp shifted
  obtain ⟨otherMonth, otherDay⟩ := addMonths_eq_some.mp further
  refine Date.le_of_month_day (by omega) fun same => ?_
  rw [day, otherDay, same]

/-- Two shifts and their sum lead to the same month; clamping twice loses at least as
many days. -/
theorem addMonths_add (one : addMonths date months = some there)
    (two : addMonths there more = some result)
    (sum : addMonths date (months + more) = some direct) :
    result.monthIndex = direct.monthIndex ∧ result ≤ direct ∧
      (date.day ≤ 28 → result = direct) := by
  obtain ⟨thereMonth, thereDay⟩ := addMonths_eq_some.mp one
  obtain ⟨month, day⟩ := addMonths_eq_some.mp two
  obtain ⟨directMonth, directDay⟩ := addMonths_eq_some.mp sum
  have same : result.monthIndex = direct.monthIndex := by omega
  refine ⟨same, (Date.le_iff_day same).mpr ?_, fun short => Date.eq_of_monthIndex same ?_⟩
  · rw [day, directDay, thereDay, same]
    omega
  · have thereLong : 28 ≤ monthLength there.monthIndex := daysInMonth_pos _ _
    have directLong : 28 ≤ monthLength direct.monthIndex := daysInMonth_pos _ _
    rw [day, directDay, thereDay, same]
    omega

/-- There and back again: never later, and the same day unless the way there clamped. -/
theorem addMonths_neg (one : addMonths date months = some there)
    (two : addMonths there (-months) = some back) :
    back ≤ date ∧ (back = date ↔ there.day = date.day) := by
  obtain ⟨thereMonth, thereDay⟩ := addMonths_eq_some.mp one
  obtain ⟨month, day⟩ := addMonths_eq_some.mp two
  have same : back.monthIndex = date.monthIndex := by omega
  have inside := date.day_bounds
  have isDay : back.day = there.day := by
    rw [day, same]
    omega
  refine ⟨(Date.le_iff_day same).mpr (by omega), fun equal => ?_, fun equal => ?_⟩
  · rw [← isDay, equal]
  · exact Date.eq_of_monthIndex same (isDay.trans equal)

/-- What `add_months` promises. -/
structure ClampedMonths (add : Date → Int → Option Date) : Prop where
  /-- In range: the month that many months on, with the day clamped to its length. -/
  shifts : ∀ (date : Date) (months : Int),
    1 ≤ (12 * (date.year : Int) + date.month - 1 + months) / 12 →
    (12 * (date.year : Int) + date.month - 1 + months) / 12 ≤ 9999 →
    ∃ result, add date months = some result ∧
      12 * (result.year : Int) + result.month - 1 =
        12 * (date.year : Int) + date.month - 1 + months ∧
      result.day = min date.day (daysInMonth result.year result.month)
  /-- Out of range: it raises. -/
  raises : ∀ (date : Date) (months : Int),
    ¬ (1 ≤ (12 * (date.year : Int) + date.month - 1 + months) / 12 ∧
      (12 * (date.year : Int) + date.month - 1 + months) / 12 ≤ 9999) →
    add date months = none
  monotone : ∀ {first second one two : Date} {months : Int}, first ≤ second →
    add first months = some one → add second months = some two → one ≤ two
  monotoneMonths : ∀ {date one two : Date} {months more : Int}, months ≤ more →
    add date months = some one → add date more = some two → one ≤ two
  composes : ∀ {date there result direct : Date} {months more : Int},
    add date months = some there → add there more = some result →
    add date (months + more) = some direct →
    (result.year = direct.year ∧ result.month = direct.month) ∧ result ≤ direct ∧
      (date.day ≤ 28 → result = direct)
  returns : ∀ {date there back : Date} {months : Int}, add date months = some there →
    add there (-months) = some back → back ≤ date ∧ (back = date ↔ there.day = date.day)

/-- **`add_months` is clamped month arithmetic.** -/
theorem add_months_clamps : ClampedMonths addMonths where
  shifts := by
    intro date months early late
    rw [← date.monthIndex_cast] at early late ⊢
    obtain ⟨result, shifted⟩ := addMonths_isSome ⟨early, late⟩
    obtain ⟨month, day⟩ := addMonths_eq_some.mp shifted
    exact ⟨result, shifted, by rw [← result.monthIndex_cast, month],
      by rw [day, result.monthLength_eq]⟩
  raises := by
    intro date months outside
    rw [← date.monthIndex_cast] at outside
    exact addMonths_none.mpr outside
  monotone := addMonths_mono
  monotoneMonths := addMonths_mono_months
  composes := by
    intro date there result direct months more one two sum
    obtain ⟨month, rest⟩ := addMonths_add one two sum
    refine ⟨⟨?_, ?_⟩, rest⟩
    · rw [← result.monthIndex_year, ← direct.monthIndex_year, month]
    · rw [← result.monthIndex_month, ← direct.monthIndex_month, month]
  returns := addMonths_neg

end Fristenwaechter
