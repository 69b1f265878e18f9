import Fristenwaechter.Calendar.Months

/-!
Owns the due dates of the Hauptuntersuchung: the last day of the month that `add_months`
leads to. They depend on the month only, so two intervals compose as months do.
-/

namespace Fristenwaechter

variable {date other there due dueToo clamped : Date} {interval more : Int}

theorem lastDayOfMonth_eq_some :
    lastDayOfMonth date = some due ↔
      due.monthIndex = date.monthIndex ∧ due.day = monthLength due.monthIndex := by
  constructor
  · intro isLast
    obtain ⟨year, month, day⟩ := of?_eq_some isLast
    have same : due.monthIndex = date.monthIndex := by
      rw [Date.monthIndex, Date.monthIndex, year, month]
    refine ⟨same, ?_⟩
    rw [same, date.monthLength_eq, day]
  · rintro ⟨same, day⟩
    have year : date.year = due.year := by
      rw [← date.monthIndex_year, ← due.monthIndex_year, same]
    have month : date.month = due.month := by
      rw [← date.monthIndex_month, ← due.monthIndex_month, same]
    rw [due.monthLength_eq] at day
    rw [lastDayOfMonth, year, month, ← day, Date.of?, dif_pos due.valid]

/-- **The rule of the Plakette.** The month that many months on, and its last day. -/
theorem nextHuDue_eq_some :
    nextHuDue date interval = some due ↔
      (due.monthIndex : Int) = date.monthIndex + interval ∧
        due.day = monthLength due.monthIndex := by
  rw [nextHuDue, Option.bind_eq_some_iff]
  constructor
  · rintro ⟨shifted, moved, isLast⟩
    obtain ⟨month, _⟩ := addMonths_eq_some.mp moved
    obtain ⟨sameMonth, day⟩ := lastDayOfMonth_eq_some.mp isLast
    exact ⟨by rw [sameMonth, month], day⟩
  · rintro ⟨month, day⟩
    have inRange : MonthInRange (date.monthIndex + interval) := by
      obtain ⟨early, late, _⟩ := due.valid
      have year := due.monthIndex_year
      rw [← month]
      exact ⟨by omega, by omega⟩
    obtain ⟨shifted, moved⟩ := addMonths_isSome inRange
    obtain ⟨shiftedMonth, _⟩ := addMonths_eq_some.mp moved
    exact ⟨shifted, moved, lastDayOfMonth_eq_some.mpr ⟨by omega, day⟩⟩

theorem nextHuDue_isSome (inRange : MonthInRange (date.monthIndex + interval)) :
    ∃ due, nextHuDue date interval = some due := by
  obtain ⟨shifted, moved⟩ := addMonths_isSome inRange
  obtain ⟨early, late, low, high, lowDay, highDay⟩ := shifted.valid
  have valid : IsDate shifted.year shifted.month (daysInMonth shifted.year shifted.month) :=
    ⟨early, late, low, high, lowDay.trans highDay, Nat.le_refl _⟩
  refine ⟨⟨_, _, _, valid⟩, ?_⟩
  rw [nextHuDue, moved, Option.bind_some, lastDayOfMonth, Date.of?, dif_pos valid]

theorem nextHuDue_none :
    nextHuDue date interval = none ↔ ¬ MonthInRange (date.monthIndex + interval) := by
  constructor
  · intro raised inRange
    obtain ⟨due, dated⟩ := nextHuDue_isSome inRange
    rw [dated] at raised
    cases raised
  · intro outside
    rw [nextHuDue, addMonths_none.mpr outside, Option.bind_none]

/-- Only the month of the inspection counts. -/
theorem nextHuDue_congr (month : date.monthIndex = other.monthIndex) :
    nextHuDue date interval = nextHuDue other interval := by
  ext due
  rw [nextHuDue_eq_some, nextHuDue_eq_some, month]

theorem nextHuDue_mono (before : date ≤ other) (dated : nextHuDue date interval = some due)
    (datedToo : nextHuDue other interval = some dueToo) : due ≤ dueToo := by
  obtain ⟨month, day⟩ := nextHuDue_eq_some.mp dated
  obtain ⟨monthToo, dayToo⟩ := nextHuDue_eq_some.mp datedToo
  have later := Date.monthIndex_mono before
  refine Date.le_of_month_day (by omega) fun same => ?_
  rw [day, dayToo, same]

/-- Two intervals after each other are their sum, also where that raises. -/
theorem nextHuDue_add (dated : nextHuDue date interval = some there) :
    nextHuDue there more = nextHuDue date (interval + more) := by
  obtain ⟨month, _⟩ := nextHuDue_eq_some.mp dated
  ext due
  rw [nextHuDue_eq_some, nextHuDue_eq_some, month, add_assoc]

/-- The end of the month is no earlier than any day of it. -/
theorem addMonths_le_nextHuDue (moved : addMonths date interval = some clamped)
    (dated : nextHuDue date interval = some due) : clamped ≤ due := by
  obtain ⟨clampedMonth, _⟩ := addMonths_eq_some.mp moved
  obtain ⟨month, day⟩ := nextHuDue_eq_some.mp dated
  have same : clamped.monthIndex = due.monthIndex := by omega
  have inside := clamped.day_bounds
  rw [Date.le_iff_day same, day, ← same]
  exact inside.2

/-- What the due dates of the Hauptuntersuchung promise. -/
structure MonthGranular (add next first : Date → Int → Option Date) : Prop where
  /-- In range: the last day of the month that many months on. -/
  shifts : ∀ (date : Date) (months : Int),
    1 ≤ (12 * (date.year : Int) + date.month - 1 + months) / 12 →
    (12 * (date.year : Int) + date.month - 1 + months) / 12 ≤ 9999 →
    ∃ due, next date months = some due ∧
      12 * (due.year : Int) + due.month - 1 = 12 * (date.year : Int) + date.month - 1 + months ∧
      due.day = daysInMonth due.year due.month
  /-- Out of range: it raises. -/
  raises : ∀ (date : Date) (months : Int),
    ¬ (1 ≤ (12 * (date.year : Int) + date.month - 1 + months) / 12 ∧
      (12 * (date.year : Int) + date.month - 1 + months) / 12 ≤ 9999) →
    next date months = none
  granular : ∀ {date other : Date} (months : Int), date.year = other.year →
    date.month = other.month → next date months = next other months
  monotone : ∀ {date other due dueToo : Date} {months : Int}, date ≤ other →
    next date months = some due → next other months = some dueToo → due ≤ dueToo
  composes : ∀ {date there : Date} {months : Int} (more : Int),
    next date months = some there → next there more = next date (months + more)
  /-- `add_months` itself does not compose. -/
  clamps : ∃ (date there result direct : Date) (months more : Int),
    add date months = some there ∧ add there more = some result ∧
      add date (months + more) = some direct ∧ result ≠ direct
  inaugural : ∀ (date : Date) (months : Int), first date months = next date months
  notBefore : ∀ {date clamped due : Date} {months : Int}, add date months = some clamped →
    next date months = some due → clamped ≤ due

/-- **HU dates are month-granular and compose.** -/
theorem hu_dates_compose : MonthGranular addMonths nextHuDue firstHuDue where
  shifts := by
    intro date months early late
    rw [← date.monthIndex_cast] at early late ⊢
    obtain ⟨due, dated⟩ := nextHuDue_isSome ⟨early, late⟩
    obtain ⟨month, day⟩ := nextHuDue_eq_some.mp dated
    exact ⟨due, dated, by rw [← due.monthIndex_cast, month], by rw [day, due.monthLength_eq]⟩
  raises := by
    intro date months outside
    rw [← date.monthIndex_cast] at outside
    exact nextHuDue_none.mpr outside
  granular := by
    intro date other months year month
    exact nextHuDue_congr (by rw [Date.monthIndex, Date.monthIndex, year, month])
  monotone := nextHuDue_mono
  composes := fun _ dated => nextHuDue_add dated
  clamps := by
    -- January 31st by way of February
    refine ⟨⟨2023, 1, 31, by decide⟩, ⟨2023, 2, 28, by decide⟩, ⟨2023, 3, 28, by decide⟩,
      ⟨2023, 3, 31, by decide⟩, 1, 1, ?_⟩
    decide
  inaugural := fun _ _ => rfl
  notBefore := addMonths_le_nextHuDue

end Fristenwaechter
