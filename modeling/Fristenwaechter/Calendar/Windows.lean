import Fristenwaechter.Calendar.Berlin

/-!
Owns the escalation window of an aware `datetime` in any zone: `escalation_deadline`
depends on the instant alone and ends at 23:59:59 of the last civil day, a wall time that
exists exactly once.
-/

namespace Fristenwaechter

/-! ### Aware and naive datetimes -/

/-- The microseconds of the calendar, on any clock. -/
def InCalendar (micros : Int) : Prop :=
  (1 - epochOrdinal) * microsPerDay ≤ micros ∧ micros < (3652060 - epochOrdinal) * microsPerDay

instance (micros : Int) : Decidable (InCalendar micros) := by
  unfold InCalendar
  infer_instance

/-- The zone of a `datetime`: Berlin with the `fold`, or another one by its offset at that
time. -/
inductive TzInfo where
  | berlin (fold : Bool)
  | other (utcoffset : Int)
deriving DecidableEq

/-- `datetime.datetime`: its own clock and its zone; a naive one has none. -/
structure Datetime where
  wall : Int
  tzinfo : Option TzInfo
  valid : InCalendar wall
deriving DecidableEq

/-- The UTC offset `zoneinfo` gives to a Berlin wall time with `fold=1`: the offset after
the change in the skipped hour, the second of the two in the repeated one. -/
def berlinOffsetOfFold (wall : Int) : Int :=
  let year := yearOf wall
  if euTransition year 3 + 3600 * microsPerSecond ≤ wall ∧
      wall < euTransition year 10 + 3600 * microsPerSecond then 7200 * microsPerSecond
  else 3600 * microsPerSecond

/-- `tzinfo.utcoffset(dt)`. -/
def TzInfo.offset (wall : Int) : TzInfo → Int
  | berlin false => berlinOffsetOfWall wall
  | berlin true => berlinOffsetOfFold wall
  | other utcoffset => utcoffset

/-- The instant a `datetime` denotes. -/
def Datetime.instant (dt : Datetime) : Option Instant :=
  dt.tzinfo.map fun zone => dt.wall - zone.offset dt.wall

/-- `require_aware`, with the zone it has found. -/
def requireAware (dt : Datetime) : Option TzInfo :=
  dt.tzinfo

/-- The clock of `dt.astimezone(BERLIN)`: a Berlin `datetime` is returned as it is, every
other one goes through UTC. -/
def Datetime.astimezone (dt : Datetime) : TzInfo → Option Int
  | .berlin _ => some dt.wall
  | .other utcoffset =>
      let utc := dt.wall - utcoffset
      if InCalendar utc ∧ InCalendar (wallOf utc) then some (wallOf utc) else none

theorem Date.toOrdinal_bounds (date : Date) : 1 ≤ date.toOrdinal ∧ date.toOrdinal ≤ 3652059 := by
  have low := (toOrdinal_inYear date).1
  refine ⟨by omega, ?_⟩
  obtain ⟨first, last, _, lastMonth, _⟩ := date.valid
  have later : date.monthIndex < 120000 := by
    unfold Date.monthIndex
    omega
  have ends := monthStart_later (show 12 ≤ date.monthIndex by unfold Date.monthIndex; omega) later
  have calendar : monthStart 120000 = 3652059 := by decide
  have inside := date.day_bounds
  rw [date.toOrdinal_eq]
  omega

/-- `datetime.combine(day, time(23, 59, 59), tzinfo=BERLIN)`. -/
def Datetime.lastSecond (day : Date) : Datetime where
  wall := ((day.toOrdinal : Int) - epochOrdinal) * microsPerDay + 86399 * microsPerSecond
  tzinfo := some (.berlin false)
  valid := by
    obtain ⟨low, high⟩ := day.toOrdinal_bounds
    simp only [InCalendar, microsPerDay, microsPerSecond, epochOrdinal]
    omega

/-- `escalation_deadline` of any `datetime`. -/
def Datetime.escalationDeadline (openedAt : Datetime) (days : Int) : Option Datetime := do
  let zone ← requireAware openedAt
  let localOpen ← openedAt.astimezone zone
  let localDay ← Date.ofOrdinal? (localOpen / microsPerDay + epochOrdinal)
  let endDay ← localDay.plusDays days
  return .lastSecond endDay

/-! ### The civil day of a clock -/

theorem berlinOffsetOfFold_summer {wall : Int} (summer : InSummer (wall - microsPerHour)) :
    berlinOffsetOfFold wall = 2 * microsPerHour := by
  obtain ⟨year, first, last, begun, notOver⟩ := summer
  simp only [microsPerHour, microsPerSecond] at begun notOver
  have isYear : yearOf wall = year :=
    yearOf_summer first last (by omega) (by simp only [microsPerDay, microsPerSecond]; omega)
  rw [berlinOffsetOfFold, isYear]
  refine if_pos ⟨?_, ?_⟩
  · change summerBegins year + 3600 * microsPerSecond ≤ wall
    simp only [microsPerSecond]
    omega
  · change wall < summerEnds year + 3600 * microsPerSecond
    simp only [microsPerSecond]
    omega

theorem berlinOffsetOfFold_winter {wall : Int} (winter : ¬ InSummer (wall - microsPerHour)) :
    berlinOffsetOfFold wall = microsPerHour := by
  obtain ⟨first, last⟩ := yearOf_valid wall
  rw [berlinOffsetOfFold]
  refine if_neg fun inside => winter ⟨_, first, last, ?_⟩
  change summerBegins _ + 3600 * microsPerSecond ≤ wall ∧
    wall < summerEnds _ + 3600 * microsPerSecond at inside
  simp only [microsPerHour, microsPerSecond] at inside ⊢
  omega

/-- A Berlin clock shows the civil day of its instant, even in the skipped hour. -/
theorem civilDay_berlin (wall : Int) (fold : Bool) :
    wallOf (wall - (TzInfo.berlin fold).offset wall) / microsPerDay = wall / microsPerDay := by
  -- where the clock is not the one of its instant it is within the changing hour
  by_cases changing : InChangingHour wall
  · have offset : berlinOffsetOfWall wall = microsPerHour ∨
        berlinOffsetOfWall wall = 2 * microsPerHour := by
      by_cases summer : InSummer (wall - 2 * microsPerHour)
      · exact .inr (berlinOffsetOfWall_summer summer)
      · exact .inl (berlinOffsetOfWall_winter summer)
    have offsetOfFold : berlinOffsetOfFold wall = microsPerHour ∨
        berlinOffsetOfFold wall = 2 * microsPerHour := by
      by_cases summer : InSummer (wall - microsPerHour)
      · exact .inr (berlinOffsetOfFold_summer summer)
      · exact .inl (berlinOffsetOfFold_winter summer)
    have either : (TzInfo.berlin fold).offset wall = microsPerHour ∨
        (TzInfo.berlin fold).offset wall = 2 * microsPerHour := by
      cases fold with
      | false => exact offset
      | true => exact offsetOfFold
    generalize (TzInfo.berlin fold).offset wall = own at either
    have back := berlinOffset_bounds (wall - own)
    unfold wallOf
    generalize berlinOffset (wall - own) = shown at back
    unfold InChangingHour at changing
    simp only [microsPerDay, microsPerHour, microsPerSecond] at changing either back ⊢
    omega
  · have step := inSummer_hour changing
    have same : (TzInfo.berlin fold).offset wall = berlinOffsetOfWall wall := by
      cases fold with
      | false => rfl
      | true =>
          change berlinOffsetOfFold wall = _
          by_cases summer : InSummer (wall - 2 * microsPerHour)
          · rw [berlinOffsetOfFold_summer (step.mp summer), berlinOffsetOfWall_summer summer]
          · rw [berlinOffsetOfFold_winter fun own => summer (step.mpr own),
              berlinOffsetOfWall_winter summer]
    rw [same]
    exact congrArg (· / microsPerDay) ((wallOf_eq_iff changing _).mpr rfl)

/-! ### The window -/

section Window

variable {opened : Datetime} {t days : Int}

/-- An opening in the calendar whose window does not leave it. -/
def WindowFits (t days : Int) : Prop :=
  InCalendar t ∧ wallOf t / microsPerDay + epochOrdinal + days ≤ 3652059

instance (t days : Int) : Decidable (WindowFits t days) := by
  unfold WindowFits
  infer_instance

theorem astimezone_day {zone : TzInfo} {localOpen : Int} (isZone : opened.tzinfo = some zone)
    (denotes : opened.instant = some t) (shown : opened.astimezone zone = some localOpen) :
    localOpen / microsPerDay = wallOf t / microsPerDay := by
  have isInstant : opened.wall - zone.offset opened.wall = t := by
    simpa [Datetime.instant, isZone] using denotes
  cases zone with
  | berlin fold =>
      cases shown
      rw [← isInstant, civilDay_berlin]
  | other utcoffset =>
      simp only [Datetime.astimezone] at shown
      split at shown
      · cases shown
        rw [← isInstant]
        rfl
      · cases shown

theorem astimezone_isSome {zone : TzInfo} (isZone : opened.tzinfo = some zone)
    (denotes : opened.instant = some t) (inCalendar : InCalendar t)
    (shown : InCalendar (wallOf t)) : ∃ localOpen, opened.astimezone zone = some localOpen := by
  have isInstant : opened.wall - zone.offset opened.wall = t := by
    simpa [Datetime.instant, isZone] using denotes
  cases zone with
  | berlin fold => exact ⟨_, rfl⟩
  | other utcoffset =>
      refine ⟨wallOf t, ?_⟩
      have utc : opened.wall - utcoffset = t := isInstant
      simp only [Datetime.astimezone, utc]
      exact if_pos ⟨inCalendar, shown⟩

theorem escalationDeadline_day {deadline : Datetime} (denotes : opened.instant = some t)
    (resolved : opened.escalationDeadline days = some deadline) :
    ∃ localDay endDay, berlinDate t = some localDay ∧ localDay.plusDays days = some endDay ∧
      deadline = .lastSecond endDay := by
  obtain ⟨zone, isZone, resolved⟩ := Option.bind_eq_some_iff.mp resolved
  obtain ⟨localOpen, shown, resolved⟩ := Option.bind_eq_some_iff.mp resolved
  obtain ⟨localDay, isDay, resolved⟩ := Option.bind_eq_some_iff.mp resolved
  obtain ⟨endDay, moved, same⟩ := Option.bind_eq_some_iff.mp resolved
  cases same
  rw [astimezone_day isZone denotes shown] at isDay
  exact ⟨localDay, endDay, isDay, moved, rfl⟩

theorem escalationDeadline_isSome (denotes : opened.instant = some t) (positive : 1 ≤ days)
    (fits : WindowFits t days) : ∃ deadline, opened.escalationDeadline days = some deadline := by
  obtain ⟨inCalendar, last⟩ := fits
  have offset := berlinOffset_bounds t
  have shown : InCalendar (wallOf t) := by
    unfold InCalendar wallOf at *
    simp only [microsPerDay, microsPerSecond, epochOrdinal] at *
    omega
  have low : 1 ≤ wallOf t / microsPerDay + epochOrdinal := by
    unfold InCalendar at shown
    simp only [microsPerDay, microsPerSecond, epochOrdinal] at *
    omega
  obtain ⟨zone, isZone⟩ : ∃ zone, opened.tzinfo = some zone := by
    obtain ⟨zone, isZone, _⟩ := Option.map_eq_some_iff.mp denotes
    exact ⟨zone, isZone⟩
  obtain ⟨localOpen, isLocal⟩ := astimezone_isSome isZone denotes inCalendar shown
  obtain ⟨localDay, isDay⟩ := ofOrdinal_isSome low (by omega)
  have ordinal := toOrdinal_ofOrdinal isDay
  obtain ⟨endDay, moved⟩ :=
    ofOrdinal_isSome (show 1 ≤ (localDay.toOrdinal : Int) + days by omega) (by omega)
  rw [← astimezone_day isZone denotes isLocal] at isDay
  exact ⟨.lastSecond endDay, by
    simp [Datetime.escalationDeadline, requireAware, isZone, isLocal, isDay, Date.plusDays, moved]⟩

/-- What the window of an opening promises. -/
structure WindowEnds (t days : Int) (deadline : Datetime) (due : Int) : Prop where
  /-- The last civil day, at 23:59:59. -/
  day : ∃ localDay endDay, berlinDate t = some localDay ∧ localDay.plusDays days = some endDay ∧
    berlinDate due = some endDay
  clock : wallOf due = deadline.wall ∧ deadline.wall % microsPerDay = 86399 * microsPerSecond
  /-- The wall time exists once. -/
  once : ∀ moment, wallOf moment = deadline.wall → moment = due
  later : t < due
  elapsed : days = 7 →
    7 * microsPerDay - microsPerHour - microsPerSecond < due - t ∧
      due - t < 8 * microsPerDay + microsPerHour

theorem lastSecond_clock (day : Date) :
    (Datetime.lastSecond day).wall / microsPerDay = (day.toOrdinal : Int) - epochOrdinal ∧
      (Datetime.lastSecond day).wall % microsPerDay = 86399 * microsPerSecond := by
  simp only [Datetime.lastSecond, microsPerDay, microsPerSecond]
  omega

theorem lastSecond_outside (day : Date) : ¬ InChangingHour (Datetime.lastSecond day).wall := by
  unfold InChangingHour
  rw [(lastSecond_clock day).2]
  decide

theorem lastSecond_instant (day : Date) :
    (Datetime.lastSecond day).instant = some (instantOfWall (Datetime.lastSecond day).wall) ∧
      ∀ moment, wallOf moment = (Datetime.lastSecond day).wall ↔
        moment = instantOfWall (Datetime.lastSecond day).wall :=
  ⟨rfl, wallOf_eq_iff (lastSecond_outside day)⟩

theorem escalationDeadline_of_day {localDay endDay : Date} (isDay : berlinDate t = some localDay)
    (moved : localDay.plusDays days = some endDay) :
    escalationDeadline t days = some (instantOfWall (Datetime.lastSecond endDay).wall) := by
  simp [escalationDeadline, isDay, moved, berlinAt, Datetime.lastSecond]

theorem windowEnds_of_day {localDay endDay : Date} (positive : 1 ≤ days)
    (isDay : berlinDate t = some localDay) (moved : localDay.plusDays days = some endDay) :
    WindowEnds t days (.lastSecond endDay) (instantOfWall (Datetime.lastSecond endDay).wall) := by
  have shows := (lastSecond_instant endDay).2
  obtain ⟨onDay, atTime⟩ := lastSecond_clock endDay
  have isWall := (shows _).mpr rfl
  obtain ⟨due, isDue⟩ : ∃ due : Int, due = instantOfWall (Datetime.lastSecond endDay).wall :=
    ⟨_, rfl⟩
  rw [← isDue] at isWall shows ⊢
  have start := berlinDate_ordinal isDay
  have ordinal := plusDays_ordinal moved
  have opens := berlinOffset_bounds t
  have closes := berlinOffset_bounds due
  have shown : (Datetime.lastSecond endDay).wall = (due : Int) + berlinOffset due := isWall.symm
  have order : t < due ∧ (days = 7 →
      7 * microsPerDay - microsPerHour - microsPerSecond < due - t ∧
        due - t < 8 * microsPerDay + microsPerHour) := by
    simp only [wallOf, microsPerDay, microsPerHour, microsPerSecond, epochOrdinal] at *
    generalize (Datetime.lastSecond endDay).wall = wall at *
    generalize berlinOffset t = before at *
    generalize berlinOffset due = after at *
    omega
  refine ⟨⟨localDay, endDay, isDay, moved, ?_⟩, ⟨isWall, atTime⟩, fun moment => (shows moment).mp,
    order.1, order.2⟩
  have sameDay : (Datetime.lastSecond endDay).wall / microsPerDay + epochOrdinal =
      (localDay.toOrdinal : Int) + days := by
    omega
  rw [berlinDate, isWall, sameDay]
  exact moved

end Window

/-- **The escalation window.** Whatever the zone of the opening, its deadline is the last
second of the last civil day, and a later opening has no earlier one. -/
theorem escalation_window {opened : Datetime} {t days : Int} (denotes : opened.instant = some t)
    (positive : 1 ≤ days) (fits : WindowFits t days) :
    ∃ deadline due, opened.escalationDeadline days = some deadline ∧ deadline.instant = some due ∧
      escalationDeadline t days = some due ∧
      (∀ other : Datetime, other.instant = some t →
        other.escalationDeadline days = some deadline) ∧
      WindowEnds t days deadline due ∧
      ∀ (later : Datetime) (openedAt : Int), later.instant = some openedAt → t ≤ openedAt →
        ∀ next, later.escalationDeadline days = some next →
          ∃ nextDue, next.instant = some nextDue ∧ due ≤ nextDue := by
  obtain ⟨deadline, resolved⟩ := escalationDeadline_isSome denotes positive fits
  obtain ⟨localDay, endDay, isDay, moved, rfl⟩ := escalationDeadline_day denotes resolved
  refine ⟨_, _, resolved, (lastSecond_instant endDay).1, escalationDeadline_of_day isDay moved, ?_,
    windowEnds_of_day positive isDay moved, ?_⟩
  · intro other same
    obtain ⟨deadlineToo, resolvedToo⟩ := escalationDeadline_isSome same positive fits
    obtain ⟨localDayToo, endDayToo, isDayToo, movedToo, rfl⟩ :=
      escalationDeadline_day same resolvedToo
    cases isDay.symm.trans isDayToo
    cases moved.symm.trans movedToo
    exact resolvedToo
  · intro later openedAt denotesLater order next resolvedLater
    obtain ⟨localLater, endLater, isLater, movedLater, rfl⟩ :=
      escalationDeadline_day denotesLater resolvedLater
    refine ⟨_, (lastSecond_instant endLater).1, ?_⟩
    have ordinal := plusDays_ordinal moved
    have ordinalLater := plusDays_ordinal movedLater
    have start := berlinDate_ordinal isDay
    have startLater := berlinDate_ordinal isLater
    have days := civilDay_mono order
    by_cases same : endDay.toOrdinal = endLater.toOrdinal
    · have sameWall : (Datetime.lastSecond endDay).wall = (Datetime.lastSecond endLater).wall := by
        simp only [Datetime.lastSecond, same]
      rw [sameWall]
    · have first := berlinOffsetOfWall_bounds (Datetime.lastSecond endDay).wall
      have second := berlinOffsetOfWall_bounds (Datetime.lastSecond endLater).wall
      unfold instantOfWall
      generalize berlinOffsetOfWall _ = before at *
      generalize berlinOffsetOfWall _ = after at *
      change (_ - _ : Int) ≤ _ - _
      simp only [Datetime.lastSecond, microsPerDay, microsPerSecond, epochOrdinal] at *
      omega

/-- The Berlin civil day of an instant, counted from 1970. -/
def civilDay (t : Int) : Int :=
  wallOf t / microsPerDay

/-- Within its civil day the order of an instant and a last second is the one of the
clock: both changes of the clocks are far from midnight. -/
theorem lastSecond_before {due moment : Int}
    (last : wallOf due % microsPerDay = 86399 * microsPerSecond)
    (sameDay : civilDay moment = civilDay due) :
    due < moment ↔ 86399 * microsPerSecond < wallOf moment % microsPerDay := by
  unfold civilDay at sameDay
  have order : due < moment ↔ wallOf due < wallOf moment := by
    unfold wallOf at *
    by_cases summer : InSummer due
    · by_cases still : InSummer moment
      · rw [berlinOffset_summer summer, berlinOffset_summer still]
        omega
      · rw [berlinOffset_summer summer, berlinOffset_winter still] at *
        obtain ⟨year, first, final, begun, notOver⟩ := summer
        have isOver : due < moment → summerEnds year ≤ moment := fun later => by
          by_contra inside
          exact still ⟨year, first, final, by omega, by omega⟩
        obtain ⟨_, october, _, ends⟩ := summer_hour year
        simp only [microsPerDay, microsPerHour, microsPerSecond] at *
        omega
    · by_cases begun : InSummer moment
      · rw [berlinOffset_winter summer, berlinOffset_summer begun] at *
        obtain ⟨year, first, final, started, notOver⟩ := begun
        have outside : due < summerBegins year ∨ summerEnds year ≤ due := by
          by_contra inside
          exact summer ⟨year, first, final, by omega, by omega⟩
        obtain ⟨march, october, begins, ends⟩ := summer_hour year
        simp only [microsPerDay, microsPerHour, microsPerSecond] at *
        omega
      · rw [berlinOffset_winter summer, berlinOffset_winter begun]
        omega
  rw [order]
  simp only [microsPerDay, microsPerSecond] at *
  omega

/-- The deadline of an opening has passed on every later civil day, and in the last
second of its own one. -/
theorem escalationDeadline_passed {openedAt days deadline moment : Int} (positive : 1 ≤ days)
    (dated : escalationDeadline openedAt days = some deadline) :
    deadline < moment ↔ civilDay openedAt + days < civilDay moment ∨
      civilDay moment = civilDay openedAt + days ∧
        86399 * microsPerSecond < wallOf moment % microsPerDay := by
  obtain ⟨localDay, isDay, dated⟩ := Option.bind_eq_some_iff.mp dated
  obtain ⟨endDay, moved, same⟩ := Option.bind_eq_some_iff.mp dated
  have isDeadline := (escalationDeadline_of_day isDay moved).symm.trans
    (show escalationDeadline openedAt days = some deadline by
      simp [escalationDeadline, isDay, moved, ← Option.some.inj same])
  cases Option.some.inj isDeadline
  obtain ⟨_, ⟨shown, atTime⟩, _⟩ := windowEnds_of_day positive isDay moved
  have onDay := (lastSecond_clock endDay).1
  rw [← shown] at atTime onDay
  have start := berlinDate_ordinal isDay
  have ordinal := plusDays_ordinal moved
  generalize instantOfWall (Datetime.lastSecond endDay).wall = due at *
  have dueDay : civilDay due = civilDay openedAt + days := by
    unfold civilDay
    omega
  rcases lt_trichotomy (civilDay moment) (civilDay due) with earlier | same | later
  · have before : ¬ due < moment := fun after =>
      absurd (civilDay_mono (Int.le_of_lt after)) (not_le.mpr earlier)
    simp only [before, false_iff]
    omega
  · rw [lastSecond_before atTime same]
    omega
  · have after : due < moment := by
      by_contra before
      exact absurd (civilDay_mono (not_lt.mp before)) (not_le.mpr later)
    simp only [after, true_iff]
    omega

/-- 2026-03-25, 14:00, one hour ahead of UTC. -/
def marchOpening : Datetime where
  wall := 1774447200 * microsPerSecond
  tzinfo := some (.other (3600 * microsPerSecond))
  valid := by decide

/-- A window over the change to summer time. -/
theorem escalation_window_march :
    ∃ deadline due, marchOpening.escalationDeadline 7 = some deadline ∧
      deadline.instant = some due ∧
      escalationDeadline (1774443600 * microsPerSecond) 7 = some due ∧
      (∀ other : Datetime, other.instant = some (1774443600 * microsPerSecond) →
        other.escalationDeadline 7 = some deadline) ∧
      WindowEnds (1774443600 * microsPerSecond) 7 deadline due ∧
      ∀ (later : Datetime) (openedAt : Int), later.instant = some openedAt →
        1774443600 * microsPerSecond ≤ openedAt →
          ∀ next, later.escalationDeadline 7 = some next →
            ∃ nextDue, next.instant = some nextDue ∧ due ≤ nextDue :=
  escalation_window rfl (by decide) (by decide +kernel)

end Fristenwaechter
