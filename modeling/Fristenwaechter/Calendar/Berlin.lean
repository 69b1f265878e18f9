import Fristenwaechter.Calendar.Months

/-!
Owns the Berlin zone on the UTC line: in which years an instant and a wall time lie in
summer, which wall times exist exactly once, and that the civil day never goes back.
-/

namespace Fristenwaechter

/-! ### `date.fromordinal` -/

/-- The month that `fromordinal` gives to a position in a year. -/
def monthAt (year rest : Nat) : Nat :=
  let guess := (rest + 50) / 32
  if Date.daysBeforeMonth year guess > rest then guess - 1 else guess

/-- The position of a day in its year. -/
def InYear (year rest : Nat) : Prop :=
  rest < 365 + if isLeap year then 1 else 0

instance (year rest : Nat) : Decidable (InYear year rest) := by
  unfold InYear
  infer_instance

def LiesInMonth (year month rest : Nat) : Prop :=
  1 ≤ month ∧ month ≤ 12 ∧ Date.daysBeforeMonth year month ≤ rest ∧
    rest < Date.daysBeforeMonth year month + daysInMonth year month

instance (year month rest : Nat) : Decidable (LiesInMonth year month rest) := by
  unfold LiesInMonth
  infer_instance

theorem daysInMonth_congr {year other : Nat} (same : isLeap year = isLeap other) :
    daysInMonth year = daysInMonth other := by
  funext month
  rw [daysInMonth, daysInMonth, same]

theorem daysBeforeMonth_congr {year other : Nat} (same : isLeap year = isLeap other) :
    Date.daysBeforeMonth year = Date.daysBeforeMonth other := by
  funext month
  rw [Date.daysBeforeMonth, Date.daysBeforeMonth, daysInMonth_congr same]

/-- The guess of the `datetime` module is at most one too high, in a leap year and in
another one. -/
private theorem monthAt_model :
    ∀ year ∈ [2000, 2001], ∀ rest < 366, InYear year rest →
      LiesInMonth year (monthAt year rest) rest := by
  decide +kernel

theorem monthAt_spec {year rest : Nat} (inYear : InYear year rest) :
    LiesInMonth year (monthAt year rest) rest := by
  obtain ⟨model, member, same⟩ : ∃ model ∈ [2000, 2001], isLeap year = isLeap model := by
    cases leap : isLeap year with
    | true => exact ⟨2000, by decide, by decide⟩
    | false => exact ⟨2001, by decide, by decide⟩
  unfold InYear at inYear
  rw [same] at inYear
  have bound : rest < 366 := by
    split at inYear <;> omega
  have isModel := monthAt_model model member rest bound inYear
  unfold LiesInMonth monthAt
  rw [daysBeforeMonth_congr same, daysInMonth_congr same]
  exact isModel

theorem of?_isSome {year month day : Nat} (valid : IsDate year month day) :
    ∃ date, Date.of? year month day = some date :=
  ⟨⟨year, month, day, valid⟩, dif_pos valid⟩

theorem ofOrdinal_isSome {ordinal : Int} (low : 1 ≤ ordinal) (high : ordinal ≤ 3652059) :
    ∃ date, Date.ofOrdinal? ordinal = some date := by
  obtain ⟨n, isOrdinal⟩ : ∃ n : Nat, ordinal = n + 1 := ⟨(ordinal - 1).toNat, by omega⟩
  have position : (ordinal - 1).toNat = n := by omega
  unfold Date.ofOrdinal?
  rw [if_pos ⟨low, high⟩]
  simp only [position]
  have cycle := Nat.div_add_mod n 146097
  have inCycle := Nat.mod_lt n (show 0 < 146097 by decide)
  generalize n / 146097 = a at cycle ⊢
  generalize n % 146097 = afterA at cycle inCycle ⊢
  have century := Nat.div_add_mod afterA 36524
  have inCentury := Nat.mod_lt afterA (show 0 < 36524 by decide)
  generalize afterA / 36524 = b at century ⊢
  generalize afterA % 36524 = afterB at century inCentury ⊢
  have olympiad := Nat.div_add_mod afterB 1461
  have inOlympiad := Nat.mod_lt afterB (show 0 < 1461 by decide)
  generalize afterB / 1461 = c at olympiad ⊢
  generalize afterB % 1461 = afterC at olympiad inOlympiad ⊢
  have single := Nat.div_add_mod afterC 365
  have inYear := Nat.mod_lt afterC (show 0 < 365 by decide)
  generalize afterC / 365 = d at single ⊢
  generalize afterC % 365 = rest at single inYear ⊢
  split
  · refine of?_isSome ⟨by omega, by omega, by decide, by decide, by decide, ?_⟩
    simp [daysInMonth]
  · obtain ⟨first, last, before, after⟩ :=
      @monthAt_spec (a * 400 + b * 100 + c * 4 + d + 1) rest (by unfold InYear; omega)
    dsimp only [monthAt] at first last before after
    exact of?_isSome ⟨by omega, by omega, first, last, by omega, by omega⟩

/-! ### Summer time -/

def microsPerHour : Int := 3600 * microsPerSecond

theorem daysBeforeYear_later {first second : Nat} (positive : 1 ≤ first) (later : first < second) :
    Date.daysBeforeYear first + 365 ≤ Date.daysBeforeYear second := by
  refine Nat.le_induction (daysBeforeYear_one positive).1
    (fun year inRange inductionHypothesis => ?_) second later
  have next := (daysBeforeYear_one (show 1 ≤ year by omega)).1
  omega

/-- Where the summer time of a year begins and ends on the UTC line. -/
def summerBegins (year : Nat) : Int :=
  euTransition year 3

def summerEnds (year : Nat) : Int :=
  euTransition year 10

/-- The clocks change at 01:00 UTC. -/
theorem summer_hour (year : Nat) :
    ∃ march october : Int, summerBegins year = march * microsPerDay + microsPerHour ∧
      summerEnds year = october * microsPerDay + microsPerHour :=
  ⟨_, _, rfl, rfl⟩

/-- The clocks change between the 84th and the 306th day of a year. -/
theorem summer_bounds (year : Nat) :
    ((Date.daysBeforeYear year : Int) + 84 - epochOrdinal) * microsPerDay ≤ summerBegins year ∧
      summerEnds year < ((Date.daysBeforeYear year : Int) + 306 - epochOrdinal) * microsPerDay := by
  have march := daysBeforeMonth_cases year (show 1 ≤ 3 by decide) (by decide)
  have october := daysBeforeMonth_cases year (show 1 ≤ 10 by decide) (by decide)
  have marchLength : daysInMonth year 3 = 31 := rfl
  have octoberLength : daysInMonth year 10 = 31 := rfl
  simp only [Nat.reduceSub, Nat.reduceLeDiff, and_true, List.getD_cons_succ,
    List.getD_cons_zero] at march october
  simp only [summerBegins, summerEnds, euTransition, lastSunday, march, october, marchLength,
    octoberLength, microsPerDay, microsPerSecond]
  split <;> omega

theorem yearOf_valid (micros : Int) : 1 ≤ yearOf micros ∧ yearOf micros ≤ 9999 := by
  unfold yearOf
  split
  · rename_i date _
    exact ⟨date.valid.1, date.valid.2.1⟩
  · decide

theorem yearOf_summer {year : Nat} {micros : Int} (first : 1 ≤ year) (last : year ≤ 9999)
    (begun : summerBegins year ≤ micros)
    (notOver : micros < summerEnds year + microsPerDay) : yearOf micros = year := by
  obtain ⟨low, high⟩ := summer_bounds year
  have after : (Date.daysBeforeYear year : Int) + 84 ≤ micros / microsPerDay + epochOrdinal := by
    simp only [microsPerDay, microsPerSecond, epochOrdinal] at low ⊢
    omega
  have before : micros / microsPerDay + epochOrdinal ≤ Date.daysBeforeYear year + 307 := by
    simp only [microsPerDay, microsPerSecond, epochOrdinal] at high notOver ⊢
    omega
  have inCalendar : Date.daysBeforeYear year ≤ 3651694 := by
    have end9999 : Date.daysBeforeYear 9999 = 3651694 := by decide
    rcases Nat.lt_or_eq_of_le last with earlier | rfl
    · have := daysBeforeYear_later first earlier
      omega
    · omega
  obtain ⟨date, found⟩ :=
    ofOrdinal_isSome (show 1 ≤ micros / microsPerDay + epochOrdinal by omega) (by omega)
  have ordinal := toOrdinal_ofOrdinal found
  have inYear := toOrdinal_inYear date
  rw [yearOf, found]
  rcases Nat.lt_trichotomy date.year year with earlier | same | later
  · have := daysBeforeYear_later date.valid.1 earlier
    omega
  · exact same
  · have := daysBeforeYear_later first later
    omega

/-- Summer time is in force. -/
def InSummer (t : Int) : Prop :=
  ∃ year, 1 ≤ year ∧ year ≤ 9999 ∧ summerBegins year ≤ t ∧ t < summerEnds year

theorem berlinOffset_summer {t : Int} (summer : InSummer t) :
    berlinOffset t = 2 * microsPerHour := by
  obtain ⟨year, first, last, begun, notOver⟩ := summer
  have isYear : yearOf t = year :=
    yearOf_summer first last begun (by simp only [microsPerDay, microsPerSecond]; omega)
  rw [berlinOffset, isYear]
  exact if_pos ⟨begun, notOver⟩

theorem berlinOffset_winter {t : Int} (winter : ¬ InSummer t) :
    berlinOffset t = microsPerHour := by
  obtain ⟨first, last⟩ := yearOf_valid t
  rw [berlinOffset]
  exact if_neg fun inside => winter ⟨_, first, last, inside⟩

theorem berlinOffsetOfWall_summer {wall : Int} (summer : InSummer (wall - 2 * microsPerHour)) :
    berlinOffsetOfWall wall = 2 * microsPerHour := by
  obtain ⟨year, first, last, begun, notOver⟩ := summer
  simp only [microsPerHour, microsPerSecond] at begun notOver
  have isYear : yearOf wall = year :=
    yearOf_summer first last (by omega) (by simp only [microsPerDay, microsPerSecond]; omega)
  rw [berlinOffsetOfWall, isYear]
  refine if_pos ⟨?_, ?_⟩
  · change summerBegins year + 7200 * microsPerSecond ≤ wall
    simp only [microsPerSecond]
    omega
  · change wall < summerEnds year + 7200 * microsPerSecond
    simp only [microsPerSecond]
    omega

theorem berlinOffsetOfWall_winter {wall : Int} (winter : ¬ InSummer (wall - 2 * microsPerHour)) :
    berlinOffsetOfWall wall = microsPerHour := by
  obtain ⟨first, last⟩ := yearOf_valid wall
  rw [berlinOffsetOfWall]
  refine if_neg fun inside => winter ⟨_, first, last, ?_⟩
  change summerBegins _ + 7200 * microsPerSecond ≤ wall ∧
    wall < summerEnds _ + 7200 * microsPerSecond at inside
  simp only [microsPerHour, microsPerSecond] at inside ⊢
  omega

/-! ### Wall times -/

/-- The hour from 02:00 to 03:00, the only one that a change of the clocks skips or
repeats. -/
def InChangingHour (wall : Int) : Prop :=
  2 * microsPerHour ≤ wall % microsPerDay ∧ wall % microsPerDay < 3 * microsPerHour

/-- Outside that hour summer time begins and ends in one step. -/
theorem inSummer_hour {wall : Int} (outside : ¬ InChangingHour wall) :
    InSummer (wall - 2 * microsPerHour) ↔ InSummer (wall - microsPerHour) := by
  unfold InChangingHour at outside
  have step : ∀ year, (summerBegins year ≤ wall - 2 * microsPerHour ↔
      summerBegins year ≤ wall - microsPerHour) ∧
        (wall - 2 * microsPerHour < summerEnds year ↔ wall - microsPerHour < summerEnds year) := by
    intro year
    obtain ⟨march, october, begins, ends⟩ := summer_hour year
    rw [begins, ends]
    simp only [microsPerDay, microsPerHour, microsPerSecond] at outside ⊢
    omega
  constructor
  · rintro ⟨year, first, last, begun, notOver⟩
    exact ⟨year, first, last, (step year).1.mp begun, (step year).2.mp notOver⟩
  · rintro ⟨year, first, last, begun, notOver⟩
    exact ⟨year, first, last, (step year).1.mpr begun, (step year).2.mpr notOver⟩

/-- **A wall time outside the changing hour exists exactly once.** -/
theorem wallOf_eq_iff {wall : Int} (outside : ¬ InChangingHour wall) (t : Int) :
    wallOf t = wall ↔ t = instantOfWall wall := by
  have step := inSummer_hour outside
  unfold wallOf instantOfWall
  by_cases summer : InSummer (wall - 2 * microsPerHour)
  · rw [berlinOffsetOfWall_summer summer]
    constructor
    · intro shown
      by_cases own : InSummer t
      · rw [berlinOffset_summer own] at shown
        omega
      · rw [berlinOffset_winter own] at shown
        have same : t = wall - microsPerHour := by omega
        exact absurd (same ▸ step.mp summer) own
    · rintro rfl
      rw [berlinOffset_summer summer]
      omega
  · rw [berlinOffsetOfWall_winter summer]
    constructor
    · intro shown
      by_cases own : InSummer t
      · rw [berlinOffset_summer own] at shown
        have same : t = wall - 2 * microsPerHour := by omega
        exact absurd (same ▸ own) summer
      · rw [berlinOffset_winter own] at shown
        omega
    · rintro rfl
      rw [berlinOffset_winter fun own => summer (step.mpr own)]
      omega

/-- **The civil day never goes back.** -/
theorem civilDay_mono {first second : Int} (before : first ≤ second) :
    wallOf first / microsPerDay ≤ wallOf second / microsPerDay := by
  by_cases ahead : wallOf first ≤ wallOf second
  · exact Int.ediv_le_ediv (by decide) ahead
  · unfold wallOf at ahead ⊢
    by_cases summer : InSummer first
    · by_cases still : InSummer second
      · rw [berlinOffset_summer summer, berlinOffset_summer still] at ahead
        omega
      · rw [berlinOffset_summer summer, berlinOffset_winter still] at ahead ⊢
        obtain ⟨year, low, high, begun, notOver⟩ := summer
        have isOver : summerEnds year ≤ second := by
          by_contra inside
          exact still ⟨year, low, high, by omega, by omega⟩
        -- both lie within an hour of the end of summer time, at 02:00 to 03:00 of its day
        obtain ⟨_, october, _, ends⟩ := summer_hour year
        simp only [microsPerDay, microsPerHour, microsPerSecond] at ahead ends ⊢
        omega
    · rw [berlinOffset_winter summer] at ahead
      have offset := (berlinOffset_bounds second).1
      simp only [microsPerHour] at ahead
      omega

/-- Adding seconds to the wall time is adding them to the instant exactly when summer
time does not end in between, nor begin more than an hour before the end. -/
theorem plusSeconds_eq_iff {t : Int} {seconds : Int} :
    plusSeconds t seconds = t + seconds * microsPerSecond ↔
      (InSummer t → InSummer (t + seconds * microsPerSecond)) ∧
        (InSummer (t + seconds * microsPerSecond - microsPerHour) → InSummer t) := by
  have positive : 0 < microsPerHour := by decide
  unfold plusSeconds wallOf instantOfWall
  change @Eq Int _ _ ↔ _
  generalize seconds * microsPerSecond = span
  by_cases summer : InSummer t
  · rw [berlinOffset_summer summer]
    have back : t + 2 * microsPerHour + span - 2 * microsPerHour = t + span := by omega
    by_cases still : InSummer (t + span)
    · rw [berlinOffsetOfWall_summer (by rw [back]; exact still)]
      simp only [summer, still, implies_true, and_self, iff_true]
      omega
    · rw [berlinOffsetOfWall_winter (by rw [back]; exact still)]
      simp only [summer, still, implies_true, true_implies, and_true, iff_false]
      omega
  · rw [berlinOffset_winter summer]
    have back : t + microsPerHour + span - 2 * microsPerHour = t + span - microsPerHour := by omega
    by_cases begun : InSummer (t + span - microsPerHour)
    · rw [berlinOffsetOfWall_summer (by rw [back]; exact begun)]
      simp only [summer, begun, false_implies, true_implies, and_false, iff_false]
      omega
    · rw [berlinOffsetOfWall_winter (by rw [back]; exact begun)]
      simp only [summer, begun, false_implies, and_self, iff_true]
      omega

end Fristenwaechter
