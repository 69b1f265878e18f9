import Fristenwaechter.Behaviour.Completion
import Fristenwaechter.Calendar.MonthEnds
import Fristenwaechter.Sweeps.Reminders

/-!
Owns where a successor deadline lies: it is due after the completion, except where the
interval of the vehicle is not positive, and a later completion never makes it due earlier.
-/

namespace Fristenwaechter

open Library (Serial Ended Table)

/-! ### The rule of each kind -/

section Rules

variable {date other due dueToo : Date} {interval : Int} {days : Int}

theorem addMonths_later (positive : 0 < interval) (moved : addMonths date interval = some due) :
    date < due := by
  obtain ⟨month, _⟩ := addMonths_eq_some.mp moved
  exact Date.lt_of_monthIndex (by omega)

/-- The end of a month lies after a day unless the interval leads back, or the day is
that end itself. -/
theorem nextHuDue_later (dated : nextHuDue date interval = some due) :
    date < due ↔ 1 ≤ interval ∨ interval = 0 ∧ date.day < daysInMonth date.year date.month := by
  obtain ⟨month, day⟩ := nextHuDue_eq_some.mp dated
  have inside := date.day_bounds
  rw [← date.monthLength_eq]
  rcases lt_trichotomy interval 0 with back | same | ahead
  · have earlier : due.toOrdinal < date.toOrdinal := Date.lt_of_monthIndex (by omega)
    constructor
    · intro later
      exact absurd later (Nat.not_lt_of_gt earlier)
    · omega
  · have sameMonth : due.monthIndex = date.monthIndex := by omega
    change date.toOrdinal < due.toOrdinal ↔ _
    rw [date.toOrdinal_eq, due.toOrdinal_eq, day, sameMonth]
    omega
  · have later : date < due := Date.lt_of_monthIndex (by omega)
    constructor
    · omega
    · exact fun _ => later

theorem daysForward_mono (before : date ≤ other) (dated : daysForward date days = some due)
    (datedToo : daysForward other days = some dueToo) : due ≤ dueToo := by
  have one := plusDays_ordinal dated
  have two := plusDays_ordinal datedToo
  have order : date.toOrdinal ≤ other.toOrdinal := before
  change due.toOrdinal ≤ dueToo.toOrdinal
  omega

end Rules

/-! ### Roll-forward -/

section RollForward

variable {kind : DeadlineKind} {result : Str} {interval : Int}
variable {completedOn later due dueToo : Date} {nachpruefung nachpruefungToo : Bool}

/-- The successor of the rule lies ahead. -/
def RollsAhead (kind : DeadlineKind) (result : Str) (interval : Int) (completedOn : Date) : Prop :=
  kind = .hu → result ≠ resultFailedDefects →
    1 ≤ interval ∨
      interval = 0 ∧ completedOn.day < daysInMonth completedOn.year completedOn.month

theorem rollForward_later
    (dated : rollForward kind result interval completedOn = some (due, nachpruefung)) :
    completedOn < due ↔ RollsAhead kind result interval completedOn := by
  unfold rollForward at dated
  unfold RollsAhead
  cases kind with
  | fsk =>
      obtain ⟨found, moved, same⟩ := Option.map_eq_some_iff.mp dated
      cases same
      simp [addMonths_later (by decide) moved]
  | uvv =>
      obtain ⟨found, moved, same⟩ := Option.map_eq_some_iff.mp dated
      cases same
      simp [addMonths_later (by decide) moved]
  | hu =>
      dsimp only at dated
      split at dated
      · rename_i defects
        obtain ⟨found, moved, same⟩ := Option.map_eq_some_iff.mp dated
        cases same
        have ordinal := plusDays_ordinal moved
        have ahead : completedOn < due := by
          change completedOn.toOrdinal < due.toOrdinal
          simp only [nachpruefungDays] at ordinal
          omega
        simp [ahead, defects]
      · rename_i other
        obtain ⟨found, moved, same⟩ := Option.map_eq_some_iff.mp dated
        cases same
        rw [nextHuDue_later moved]
        simp [other]

theorem rollForward_mono (before : completedOn ≤ later)
    (dated : rollForward kind result interval completedOn = some (due, nachpruefung))
    (datedToo : rollForward kind result interval later = some (dueToo, nachpruefungToo)) :
    due ≤ dueToo := by
  unfold rollForward at dated datedToo
  cases kind with
  | fsk =>
      obtain ⟨found, moved, same⟩ := Option.map_eq_some_iff.mp dated
      obtain ⟨foundToo, movedToo, sameToo⟩ := Option.map_eq_some_iff.mp datedToo
      cases same
      cases sameToo
      exact addMonths_mono before moved movedToo
  | uvv =>
      obtain ⟨found, moved, same⟩ := Option.map_eq_some_iff.mp dated
      obtain ⟨foundToo, movedToo, sameToo⟩ := Option.map_eq_some_iff.mp datedToo
      cases same
      cases sameToo
      exact addMonths_mono before moved movedToo
  | hu =>
      dsimp only at dated datedToo
      split at dated
      · rename_i defects
        rw [if_pos defects] at datedToo
        obtain ⟨found, moved, same⟩ := Option.map_eq_some_iff.mp dated
        obtain ⟨foundToo, movedToo, sameToo⟩ := Option.map_eq_some_iff.mp datedToo
        cases same
        cases sameToo
        exact daysForward_mono before moved movedToo
      · rename_i other
        rw [if_neg other] at datedToo
        obtain ⟨found, moved, same⟩ := Option.map_eq_some_iff.mp dated
        obtain ⟨foundToo, movedToo, sameToo⟩ := Option.map_eq_some_iff.mp datedToo
        cases same
        cases sameToo
        exact nextHuDue_mono before moved movedToo

/-- `interval` only matters to an HU deadline. -/
theorem rollForward_interval {intervalToo : Int} (same : kind = .hu → interval = intervalToo) :
    rollForward kind result interval completedOn =
      rollForward kind result intervalToo completedOn := by
  cases kind with
  | hu => rw [same rfl]
  | fsk => rfl
  | uvv => rfl

end RollForward

/-- **Roll-forward.** The successor of a completed deadline is due after the completion
exactly when the rule leads ahead, and of two completions of one kind with one result and one
interval the later one never makes it due earlier. -/
theorem roll_forward_ahead {sha256 : Str → Str} {session after sessionToo afterToo : Session}
    {deadlineId companyId deadlineIdToo companyIdToo : Uuid} {result : Str}
    {completedOn completedOnToo : Date} {performedById performedByIdToo : Option Uuid}
    {method methodToo : Option Str} {completion completionToo : CompletionResult}
    (ended : postgres.Ends (completeDeadline sha256 deadlineId companyId result completedOn
      performedById method) session (.ok completion) after)
    (endedToo : postgres.Ends (completeDeadline sha256 deadlineIdToo companyIdToo result
      completedOnToo performedByIdToo methodToo) sessionToo (.ok completionToo) afterToo) :
    ∃ parent interval due parentToo intervalToo dueToo,
      Spawns deadlineId companyId result completedOn completion after parent interval due ∧
      Spawns deadlineIdToo companyIdToo result completedOnToo completionToo afterToo parentToo
        intervalToo dueToo ∧
      (completedOn < due ↔ RollsAhead parent.kind result interval completedOn) ∧
      (parent.kind = parentToo.kind → (parent.kind = .hu → interval = intervalToo) →
        completedOn ≤ completedOnToo → due ≤ dueToo) := by
  obtain ⟨parent, interval, due, spawns⟩ := completeDeadline_spawns ended
  obtain ⟨parentToo, intervalToo, dueToo, spawnsToo⟩ := completeDeadline_spawns endedToo
  refine ⟨parent, interval, due, parentToo, intervalToo, dueToo, spawns, spawnsToo,
    rollForward_later spawns.dated, fun sameKind sameInterval before => ?_⟩
  have dated := spawns.dated
  rw [rollForward_interval sameInterval, sameKind] at dated
  exact rollForward_mono before dated spawnsToo.dated

/-! ### A vehicle of the fleet -/

def Form.of (fields : List (String × String)) : Form :=
  fields.map fun field => (field.1.toList, field.2.toList)

def fleetVehicle (interval : String) : Request :=
  .createVehicle fleetOwner (.of [("kennzeichen", "B-XY 1"), ("first_registration", "2024-01-31"),
    ("hu_interval_months", interval)])

def vehicleInspection (kind result day : String) : Request :=
  .recordVehicleCheck fleetOwner (fleetId 1001)
    (.of [("kind", kind), ("result", result), ("performed_on", day)])

theorem completeDeadline_served {sha256 : Str → Str} {validateKennzeichen : Str → Option Str}
    {world next : World} {tenant performedById : Option Uuid} {deadlineId companyId : Uuid}
    {result : Str} {completedOn : Date} {method : Option Str} {envs : List Env} {done : Done}
    (ran : (system sha256 validateKennzeichen).serve world (.completeDeadline tenant deadlineId
      companyId result completedOn performedById method) envs = some (next, done))
    (committed : Done.isCommitted done = true) :
    ∃ session completion after, postgres.Ends (completeDeadline sha256 deadlineId companyId result
      completedOn performedById method) session (.ok completion) after := by
  obtain ⟨_, outcome, isOutcome, ended⟩ :=
    Library.Engine.serve_ends (system_laws sha256 validateKennzeichen) ran
  rcases transaction_ends ended with ⟨value, middle, _, body, _⟩ | ⟨error, rfl, _⟩
  · rcases ends_return.mp body with ⟨completion, _, completes⟩ | ⟨_, same, _⟩
    · exact ⟨_, completion, middle, completes⟩
    · cases same
  · simp [Done.isCommitted, isOutcome] at committed

/-- An HU in January and one in February of the same year. -/
theorem roll_forward_ahead_fleet :
    ∃ january february session after sessionToo afterToo completion completionToo,
      postgres.Ends (completeDeadline id (fleetId 1006) (fleetId 100) resultPassed january none
        none) session (.ok completion) after ∧
      postgres.Ends (completeDeadline id (fleetId 1006) (fleetId 100) resultPassed february none
        none) sessionToo (.ok completionToo) afterToo ∧
      ∃ parent interval due parentToo intervalToo dueToo,
        Spawns (fleetId 1006) (fleetId 100) resultPassed january completion after parent interval
          due ∧
        Spawns (fleetId 1006) (fleetId 100) resultPassed february completionToo afterToo parentToo
          intervalToo dueToo ∧
        (january < due ↔ RollsAhead parent.kind resultPassed interval january) ∧
        (parent.kind = parentToo.kind → (parent.kind = .hu → interval = intervalToo) →
          january ≤ february → due ≤ dueToo) := by
  have served : ((system id some).serve fleetWorld (fleetVehicle "24") (fleetEnvs 1 13)).any
      (fun created =>
        ((system id some).serve created.1 (.completeDeadline none (fleetId 1006) (fleetId 100)
          resultPassed ⟨2026, 1, 31, by decide⟩ none none) (fleetEnvs 30 23)).any
            (fun served => Done.isCommitted served.2) &&
        ((system id some).serve created.1 (.completeDeadline none (fleetId 1006) (fleetId 100)
          resultPassed ⟨2026, 2, 1, by decide⟩ none none) (fleetEnvs 30 23)).any
            (fun served => Done.isCommitted served.2)) = true := by
    decide +kernel
  obtain ⟨⟨world, _⟩, _, both⟩ := (Option.any_eq_true _ _).mp served
  obtain ⟨one, two⟩ := (Bool.and_eq_true _ _).mp both
  obtain ⟨⟨_, _⟩, ran, committed⟩ := (Option.any_eq_true _ _).mp one
  obtain ⟨⟨_, _⟩, ranToo, committedToo⟩ := (Option.any_eq_true _ _).mp two
  obtain ⟨session, completion, after, ended⟩ := completeDeadline_served ran committed
  obtain ⟨sessionToo, completionToo, afterToo, endedToo⟩ :=
    completeDeadline_served ranToo committedToo
  exact ⟨_, _, session, after, sessionToo, afterToo, completion, completionToo, ended, endedToo,
    roll_forward_ahead ended endedToo⟩

/-- An interval of minus one month makes a passed HU due again before it was performed. -/
theorem roll_forward_standstill :
    ∃ world history, Serial (system id some) fleetWorld world history ∧
      history.map Ended.request =
        [fleetVehicle "-1", vehicleInspection "HU" "PASSED" "2026-01-31"] ∧
      ∃ completed ∈ world.db.deadlines, ∃ successor ∈ world.db.deadlines,
        completed.kind = .hu ∧ completed.completedOn = some ⟨2026, 1, 31, by decide⟩ ∧
          successor.kind = .hu ∧ successor.subject = completed.subject ∧
            successor.status = .open ∧ successor.dueOn = ⟨2025, 12, 31, by decide⟩ := by
  have served : ((system id some).serve fleetWorld (fleetVehicle "-1") (fleetEnvs 1 13)).any
      (fun created =>
        ((system id some).serve created.1 (vehicleInspection "HU" "PASSED" "2026-01-31")
          (fleetEnvs 30 26)).any fun served =>
            served.1.db.deadlines.rows.any fun completed =>
              served.1.db.deadlines.rows.any fun successor =>
                completed.kind = .hu ∧ completed.completedOn = some ⟨2026, 1, 31, by decide⟩ ∧
                  successor.kind = .hu ∧ successor.subject = completed.subject ∧
                    successor.status = .open ∧ successor.dueOn = ⟨2025, 12, 31, by decide⟩) =
      true := by
    decide +kernel
  obtain ⟨⟨world, first⟩, created, rest⟩ := (Option.any_eq_true _ _).mp served
  obtain ⟨⟨later, second⟩, inspected, found⟩ := (Option.any_eq_true _ _).mp rest
  obtain ⟨completed, member, found⟩ := List.any_eq_true.mp found
  obtain ⟨successor, memberToo, found⟩ := List.any_eq_true.mp found
  refine ⟨later, [first] ++ [second], (Serial.nothing.serve created).serve inspected, ?_, completed,
    member, successor, memberToo, of_decide_eq_true found⟩
  rw [List.map_append, List.map_singleton, List.map_singleton,
    (Library.Engine.serve_ends (system_laws _ _) created).1,
    (Library.Engine.serve_ends (system_laws _ _) inspected).1]
  rfl

end Fristenwaechter
