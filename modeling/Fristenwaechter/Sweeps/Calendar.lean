import Fristenwaechter.Dates

/-!
Owns how far apart days and instants are: the Berlin day of an instant up to an hour,
how far back the retention of the outbox reaches, and that an ISO week names seven days.
-/

namespace Fristenwaechter

/-! ### Ordinals -/

theorem daysInMonth_le (year month : Nat) : daysInMonth year month ≤ 31 := by
  unfold daysInMonth
  split
  · split <;> decide
  · split <;> decide

theorem daysBeforeMonth_le (year month : Nat) :
    Date.daysBeforeMonth year month ≤ 31 * (month - 1) := by
  unfold Date.daysBeforeMonth
  induction month - 1 with
  | zero => simp
  | succ months inductionHypothesis =>
      rw [List.range_succ, List.map_append, List.sum_append]
      have last := daysInMonth_le year (months + 1)
      simp only [List.map_cons, List.map_nil, List.sum_cons, List.sum_nil, Nat.add_zero]
      omega

theorem daysBeforeMonth_cases (year : Nat) {month : Nat} (low : 1 ≤ month) (high : month ≤ 12) :
    Date.daysBeforeMonth year month =
      [0, 31, 59, 90, 120, 151, 181, 212, 243, 273, 304, 334].getD (month - 1) 0 +
        if isLeap year ∧ 3 ≤ month then 1 else 0 := by
  have isMonth : month ∈ List.range' 1 12 := by
    rw [List.mem_range']
    exact ⟨month - 1, by omega, by omega⟩
  cases leap : isLeap year <;>
    simp only [List.range', List.mem_cons, List.not_mem_nil, or_false] at isMonth <;>
    rcases isMonth with rfl | rfl | rfl | rfl | rfl | rfl | rfl | rfl | rfl | rfl | rfl | rfl <;>
    simp [Date.daysBeforeMonth, List.range_succ, daysInMonth, leap]

theorem of?_eq_some {year month day : Nat} {date : Date}
    (same : Date.of? year month day = some date) :
    date.year = year ∧ date.month = month ∧ date.day = day := by
  unfold Date.of? at same
  split at same
  · cases same
    exact ⟨rfl, rfl, rfl⟩
  · cases same

/-- The days before a year by its cycles of 400, 100, 4 and 1 years. -/
theorem daysBeforeYear_cycles (a : Nat) {b c d : Nat} (century : b ≤ 3) (olympiad : c ≤ 24)
    (single : d ≤ 3) :
    Date.daysBeforeYear (400 * a + 100 * b + 4 * c + d + 1) =
      146097 * a + 36524 * b + 1461 * c + 365 * d := by
  have fours : (400 * a + 100 * b + 4 * c + d) / 4 = 100 * a + 25 * b + c := by omega
  have hundreds : (400 * a + 100 * b + 4 * c + d) / 100 = 4 * a + b := by omega
  have cycles : (400 * a + 100 * b + 4 * c + d) / 400 = a := by omega
  rw [Date.daysBeforeYear, Nat.add_sub_cancel, fours, hundreds, cycles]
  omega

theorem isLeap_four (a b : Nat) {c : Nat} (olympiad : c ≤ 23) :
    isLeap (400 * a + 100 * b + 4 * c + 3 + 1) = true := by
  have fourth : (400 * a + 100 * b + 4 * c + 3 + 1) % 4 = 0 := by omega
  have hundredth : (400 * a + 100 * b + 4 * c + 3 + 1) % 100 ≠ 0 := by omega
  simp [isLeap, fourth, hundredth]

theorem isLeap_cycle (a : Nat) : isLeap (400 * a + 100 * 3 + 4 * 24 + 3 + 1) = true := by
  have fourth : (400 * a + 100 * 3 + 4 * 24 + 3 + 1) % 4 = 0 := by omega
  have cycle : (400 * a + 100 * 3 + 4 * 24 + 3 + 1) % 400 = 0 := by omega
  simp [isLeap, fourth, cycle]

theorem toOrdinal_lastDay {date : Date} (leap : isLeap date.year = true)
    (december : date.month = 12) (last : date.day = 31) :
    date.toOrdinal = Date.daysBeforeYear date.year + 366 := by
  rw [Date.toOrdinal, december, last, daysBeforeMonth_cases _ (by decide) (by decide)]
  simp [leap]

theorem toOrdinal_ofOrdinal {ordinal : Int} {date : Date}
    (same : Date.ofOrdinal? ordinal = some date) :
    (date.toOrdinal : Int) = ordinal := by
  unfold Date.ofOrdinal? at same
  split at same
  swap
  · cases same
  rename_i inRange
  obtain ⟨n, isOrdinal⟩ : ∃ n : Nat, ordinal = n + 1 := ⟨(ordinal - 1).toNat, by omega⟩
  have position : (ordinal - 1).toNat = n := by omega
  simp only [position] at same
  -- the cycles of 400, 100, 4 and 1 years, and what is left of each
  have cycle := Nat.div_add_mod n 146097
  have inCycle := Nat.mod_lt n (show 0 < 146097 by decide)
  generalize n / 146097 = a at same cycle
  generalize n % 146097 = afterA at same cycle inCycle
  have century := Nat.div_add_mod afterA 36524
  have inCentury := Nat.mod_lt afterA (show 0 < 36524 by decide)
  generalize afterA / 36524 = b at same century
  generalize afterA % 36524 = afterB at same century inCentury
  have olympiad := Nat.div_add_mod afterB 1461
  have inOlympiad := Nat.mod_lt afterB (show 0 < 1461 by decide)
  generalize afterB / 1461 = c at same olympiad
  generalize afterB % 1461 = afterC at same olympiad inOlympiad
  have single := Nat.div_add_mod afterC 365
  have inYear := Nat.mod_lt afterC (show 0 < 365 by decide)
  generalize afterC / 365 = d at same single
  generalize afterC % 365 = rest at same single inYear
  split at same
  · rename_i last
    obtain ⟨sameYear, sameMonth, sameDay⟩ := of?_eq_some same
    by_cases fourth : b = 4
    · have left : afterB = 0 := by omega
      have nothing : c = 0 ∧ d = 0 := by omega
      have isYear : date.year = 400 * a + 100 * 3 + 4 * 24 + 3 + 1 := by omega
      have leap : isLeap date.year = true := isYear ▸ isLeap_cycle a
      have days := toOrdinal_lastDay leap sameMonth sameDay
      rw [isYear, daysBeforeYear_cycles a (show 3 ≤ 3 by decide) (show 24 ≤ 24 by decide)
        (show 3 ≤ 3 by decide)] at days
      omega
    · have isFourth : d = 4 := last.resolve_right fourth
      have century : b ≤ 3 := by omega
      have olympiad : c ≤ 23 := by omega
      have isYear : date.year = 400 * a + 100 * b + 4 * c + 3 + 1 := by omega
      have leap : isLeap date.year = true := isYear ▸ isLeap_four a b olympiad
      have days := toOrdinal_lastDay leap sameMonth sameDay
      rw [isYear, daysBeforeYear_cycles a century (by omega) (by decide)] at days
      omega
  · rename_i inside
    obtain ⟨sameYear, sameMonth, sameDay⟩ := of?_eq_some same
    have century : b ≤ 3 := by omega
    have olympiad : c ≤ 24 := by omega
    have single : d ≤ 3 := by omega
    have isYear : date.year = 400 * a + 100 * b + 4 * c + d + 1 := by omega
    have years := daysBeforeYear_cycles a century olympiad single
    rw [← isYear] at years
    generalize a * 400 + b * 100 + c * 4 + d + 1 = year at sameYear sameMonth sameDay
    have before : Date.daysBeforeMonth year
        (if Date.daysBeforeMonth year ((rest + 50) / 32) > rest then (rest + 50) / 32 - 1
          else (rest + 50) / 32) ≤ rest := by
      split
      · have bound := daysBeforeMonth_le year ((rest + 50) / 32 - 1)
        omega
      · omega
    rw [Date.toOrdinal, years, sameYear, sameMonth, sameDay]
    omega

/-! ### Months back -/

theorem daysBeforeYear_two {year : Nat} (positive : 1 ≤ year) :
    Date.daysBeforeYear year + 730 ≤ Date.daysBeforeYear (year + 2) := by
  obtain ⟨y, rfl⟩ : ∃ y, year = y + 1 := ⟨year - 1, by omega⟩
  have before : y + 1 + 2 - 1 = y + 2 := by omega
  rw [Date.daysBeforeYear, Date.daysBeforeYear, before, Nat.add_sub_cancel]
  omega

/-- The day of the month 24 months ago is at least 729 days back. -/
theorem twoYearsBack {today cutoff : Date} (back : addMonths today (-24) = some cutoff) :
    cutoff.toOrdinal + 729 ≤ today.toOrdinal := by
  obtain ⟨_, _, lowMonth, highMonth, _, _⟩ := today.valid
  unfold addMonths at back
  have whole : ((today.month : Int) - 1 + -24) / 12 = -2 := by omega
  have sameMonth : (((today.month : Int) - 1 + -24) % 12).toNat + 1 = today.month := by omega
  simp only [whole, sameMonth] at back
  split at back
  swap
  · cases back
  rename_i positive
  obtain ⟨year, isYear⟩ : ∃ year, today.year = year + 2 := ⟨today.year - 2, by omega⟩
  have before : ((today.year : Int) + -2).toNat = year := by omega
  rw [before] at back
  obtain ⟨cutoffYear, cutoffMonth, cutoffDay⟩ := of?_eq_some back
  have years := daysBeforeYear_two (show 1 ≤ year by omega)
  have months : Date.daysBeforeMonth year today.month ≤
      Date.daysBeforeMonth (year + 2) today.month + 1 := by
    rw [daysBeforeMonth_cases _ lowMonth highMonth, daysBeforeMonth_cases _ lowMonth highMonth]
    split <;> split <;> omega
  have days : min today.day (daysInMonth year today.month) ≤ today.day := Nat.min_le_left _ _
  rw [Date.toOrdinal, Date.toOrdinal, cutoffYear, cutoffMonth, cutoffDay, isYear]
  omega

/-! ### Instants -/

theorem berlinOffset_bounds (t : Instant) :
    3600 * microsPerSecond ≤ berlinOffset t ∧ berlinOffset t ≤ 7200 * microsPerSecond := by
  unfold berlinOffset
  dsimp only
  split <;> decide

theorem berlinOffsetOfWall_bounds (wall : Int) :
    3600 * microsPerSecond ≤ berlinOffsetOfWall wall ∧
      berlinOffsetOfWall wall ≤ 7200 * microsPerSecond := by
  unfold berlinOffsetOfWall
  dsimp only
  split <;> decide

theorem berlinDate_ordinal {t : Instant} {day : Date} (isDay : berlinDate t = some day) :
    (day.toOrdinal : Int) = wallOf t / microsPerDay + epochOrdinal :=
  toOrdinal_ofOrdinal isDay

/-- Time does not go back by more than the repeated hour. -/
theorem berlinDate_mono {first second : Instant} (before : first ≤ second) {one two : Date}
    (isOne : berlinDate first = some one) (isTwo : berlinDate second = some two) :
    one.toOrdinal ≤ two.toOrdinal + 1 := by
  have firstDay := berlinDate_ordinal isOne
  have secondDay := berlinDate_ordinal isTwo
  have firstOffset := berlinOffset_bounds first
  have secondOffset := berlinOffset_bounds second
  simp only [wallOf, microsPerDay, microsPerSecond] at firstDay secondDay firstOffset secondOffset
  obtain ⟨gap, before⟩ := Int.le.dest before
  generalize berlinOffset first = firstShift at firstDay firstOffset
  generalize berlinOffset second = secondShift at secondDay secondOffset
  omega

theorem berlinDate_before {t : Instant} {today day : Date} (isToday : berlinDate t = some today)
    (before : t < berlinAt day 0) : today.toOrdinal ≤ day.toOrdinal := by
  have ordinal := berlinDate_ordinal isToday
  have offset := berlinOffset_bounds t
  have start := berlinOffsetOfWall_bounds
    (((day.toOrdinal : Int) - epochOrdinal) * microsPerDay + 0 * microsPerSecond)
  unfold berlinAt instantOfWall at before
  simp only [wallOf, microsPerDay, microsPerSecond] at ordinal offset start before
  obtain ⟨gap, before⟩ := Int.lt.dest before
  generalize berlinOffset t = shift at ordinal offset
  generalize berlinOffsetOfWall _ = startShift at start before
  omega

/-- **Retention.** Between an instant before a pruned row and the next ones lie almost
two years. -/
theorem retention {first created pruned last cutoff : Instant} {one today two : Date}
    (isOne : berlinDate first = some one) (earlier : first < created)
    (isToday : berlinDate pruned = some today) (isCutoff : instantMonthsAgo today 24 = some cutoff)
    (isPruned : created < cutoff) (later : pruned ≤ last) (isTwo : berlinDate last = some two) :
    one.toOrdinal + 728 ≤ two.toOrdinal := by
  unfold instantMonthsAgo at isCutoff
  obtain ⟨day, back, rfl⟩ := Option.map_eq_some_iff.mp isCutoff
  have away := twoYearsBack back
  have inside := berlinDate_before isOne (Int.lt_trans earlier isPruned)
  have onwards := berlinDate_mono later isToday isTwo
  omega

/-! ### ISO weeks -/

theorem isoWeekOneMonday_bounds (year : Nat) :
    (Date.daysBeforeYear year : Int) + 1 - 3 ≤ Date.isoWeekOneMonday year ∧
      Date.isoWeekOneMonday year ≤ (Date.daysBeforeYear year : Int) + 1 + 3 := by
  unfold Date.isoWeekOneMonday
  dsimp only
  split <;> omega

theorem daysBeforeYear_one {year : Nat} (positive : 1 ≤ year) :
    Date.daysBeforeYear year + 365 ≤ Date.daysBeforeYear (year + 1) ∧
      Date.daysBeforeYear (year + 1) ≤ Date.daysBeforeYear year + 366 := by
  obtain ⟨y, rfl⟩ : ∃ y, year = y + 1 := ⟨year - 1, by omega⟩
  have before : y + 1 + 1 - 1 = y + 1 := by omega
  rw [Date.daysBeforeYear, Date.daysBeforeYear, before, Nat.add_sub_cancel]
  omega

theorem toOrdinal_inYear (date : Date) :
    Date.daysBeforeYear date.year + 1 ≤ date.toOrdinal ∧
      date.toOrdinal ≤ Date.daysBeforeYear date.year + 366 := by
  obtain ⟨_, _, lowMonth, highMonth, lowDay, highDay⟩ := date.valid
  have before := daysBeforeMonth_cases date.year lowMonth highMonth
  have length := daysInMonth_le date.year date.month
  have december := daysBeforeMonth_le date.year date.month
  rw [Date.toOrdinal]
  refine ⟨by omega, ?_⟩
  by_cases last : date.month = 12
  · rw [last] at before ⊢
    simp at before
    split at before <;> omega
  · omega

theorem isoWeekOneMonday_monday (year : Nat) : (Date.isoWeekOneMonday year - 1) % 7 = 0 := by
  unfold Date.isoWeekOneMonday
  dsimp only
  split <;> omega

/-- An ISO year has 53 weeks at most. -/
theorem isoWeekOneMonday_step (year : Nat) :
    Date.isoWeekOneMonday year ≤ Date.isoWeekOneMonday (year + 1) ∧
      Date.isoWeekOneMonday (year + 1) ≤ Date.isoWeekOneMonday year + 372 := by
  rcases Nat.eq_zero_or_pos year with rfl | positive
  · decide
  · have nextYear := daysBeforeYear_one positive
    have thisMonday := isoWeekOneMonday_bounds year
    have nextMonday := isoWeekOneMonday_bounds (year + 1)
    omega

theorem isoWeekOneMonday_mono {first second : Nat} (before : first ≤ second) :
    Date.isoWeekOneMonday first ≤ Date.isoWeekOneMonday second :=
  monotone_nat_of_le_succ (fun year => (isoWeekOneMonday_step year).1) before

theorem isoWeek_year (date : Date) :
    Date.isoWeekOneMonday date.isoWeek.1 ≤ date.toOrdinal ∧
      (date.toOrdinal : Int) < Date.isoWeekOneMonday (date.isoWeek.1 + 1) ∧
      (date.isoWeek.2 : Int) =
        ((date.toOrdinal : Int) - Date.isoWeekOneMonday date.isoWeek.1) / 7 + 1 := by
  obtain ⟨positive, _⟩ := date.valid
  have inYear := toOrdinal_inYear date
  have thisMonday := isoWeekOneMonday_bounds date.year
  have nextMonday := isoWeekOneMonday_bounds (date.year + 1)
  have nextYear := daysBeforeYear_one positive
  unfold Date.isoWeek
  dsimp only
  split
  · rename_i early
    have second : 2 ≤ date.year := by
      by_contra first
      have isFirst : date.year = 1 := by omega
      have monday : Date.isoWeekOneMonday date.year = 1 := by
        rw [isFirst]
        decide
      omega
    have lastMonday := isoWeekOneMonday_bounds (date.year - 1)
    have lastYear := daysBeforeYear_one (show 1 ≤ date.year - 1 by omega)
    have isYear : date.year - 1 + 1 = date.year := by omega
    dsimp only
    rw [isYear] at lastYear ⊢
    omega
  · rename_i begun
    split
    · have afterMonday := isoWeekOneMonday_bounds (date.year + 1 + 1)
      have afterYear := daysBeforeYear_one (show 1 ≤ date.year + 1 by omega)
      dsimp only
      omega
    · rename_i inTime
      have monday := isoWeekOneMonday_monday date.year
      have mondayAfter := isoWeekOneMonday_monday (date.year + 1)
      dsimp only
      omega

theorem isoWeek_spec (date : Date) :
    date.isoWeek.2 < 100 ∧ ∃ weekday : Int, 0 ≤ weekday ∧ weekday ≤ 6 ∧
      (date.toOrdinal : Int) =
        Date.isoWeekOneMonday date.isoWeek.1 + 7 * ((date.isoWeek.2 : Int) - 1) + weekday := by
  obtain ⟨begun, notOver, week⟩ := isoWeek_year date
  have length := (isoWeekOneMonday_step date.isoWeek.1).2
  refine ⟨by omega, ((date.toOrdinal : Int) - Date.isoWeekOneMonday date.isoWeek.1) % 7, ?_⟩
  omega

theorem isoWeek_near {one two : Date} (same : one.isoWeek = two.isoWeek) :
    two.toOrdinal ≤ one.toOrdinal + 6 := by
  obtain ⟨_, first, _, _, isFirst⟩ := isoWeek_spec one
  obtain ⟨_, second, _, _, isSecond⟩ := isoWeek_spec two
  rw [same] at isFirst
  omega

/-- **ISO weeks.** The ISO year and week of two days agree exactly if they lie in one
week from Monday to Sunday. -/
theorem isoWeek_eq_iff {one two : Date} :
    one.isoWeek = two.isoWeek ↔ (one.toOrdinal - 1) / 7 = (two.toOrdinal - 1) / 7 := by
  obtain ⟨_, first, firstLow, firstHigh, isFirst⟩ := isoWeek_spec one
  obtain ⟨_, second, secondLow, secondHigh, isSecond⟩ := isoWeek_spec two
  have oneYear := isoWeek_year one
  have twoYear := isoWeek_year two
  have onePositive := toOrdinal_inYear one
  have twoPositive := toOrdinal_inYear two
  have oneMonday := isoWeekOneMonday_monday one.isoWeek.1
  have twoMonday := isoWeekOneMonday_monday two.isoWeek.1
  constructor
  · intro same
    rw [same] at isFirst
    omega
  · intro same
    -- the Monday that ends an ISO year separates its weeks from those of later years
    have sameYear : one.isoWeek.1 = two.isoWeek.1 := by
      rcases Nat.lt_trichotomy one.isoWeek.1 two.isoWeek.1 with earlier | equal | later
      · have onwards := isoWeekOneMonday_mono (show one.isoWeek.1 + 1 ≤ two.isoWeek.1 from earlier)
        have between := isoWeekOneMonday_monday (one.isoWeek.1 + 1)
        omega
      · exact equal
      · have onwards := isoWeekOneMonday_mono (show two.isoWeek.1 + 1 ≤ one.isoWeek.1 from later)
        have between := isoWeekOneMonday_monday (two.isoWeek.1 + 1)
        omega
    refine Prod.ext sameYear ?_
    rw [sameYear] at isFirst
    omega

end Fristenwaechter
