import Fristenwaechter.Lockout.Effects

/-!
Owns the safety of the lockout: no order of checks leaves a driver cleared to drive
while one of its cases is OPEN.
-/

namespace Fristenwaechter

open Library (Commits Config Discipline Policy Reachable Sound Table)
open Library.Table (Carries)

variable {now : World} {after : Session}

/-- A driver with an OPEN case is not cleared to drive. -/
def LockedWhileOpen (world : World) : Prop :=
  ∀ case ∈ world.db.cases, case.status = .open →
    ∀ driver ∈ world.db.drivers, driver.id = case.driverId →
      driver.isAuthorizedToDrive = false

/-- A lifted lock leaves no OPEN case of its driver behind. -/
theorem LiftsLock.closes {resolvedById : Option Uuid} {driver : Driver} {load seen : Sent}
    {first resolving : List Write} (backed : Backed after now)
    (lifts : LiftsLock resolvedById after.trace driver load seen resolving)
    (other : ∀ write ∈ first, write.Elsewhere)
    (whole : after.writes = first ++ (driver.update driver.unlocked ++ resolving))
    (found : now.db.drivers.find driver.id = some driver) {case : EscalationCase}
    (member : case ∈ (now.db.after after.writes).cases) (own : case.driverId = driver.id) :
    case.status ≠ .open := by
  intro isOpen
  rcases lifts.cases now.db other whole with ⟨none, unchanged⟩ |
    ⟨read, instant, readSome, _, updated⟩
  · rw [unchanged] at member
    obtain ⟨read, readSome, _⟩ := lifts.reads backed found member own isOpen
    rw [none] at readSome
    cases readSome
  · rw [updated] at member
    obtain ⟨old, oldIn, isOld⟩ := (Table.mem_update (by simp)).mp member
    have readOpen := (openCase_spec lifts.unwritten readSome).2.2
    by_cases hit : old.id = read.id
    · rw [if_pos (by simpa using hit)] at isOld
      have closed : case.status = .resolvedPassed := by
        rw [isOld]
        simp [EscalationCase.changed, column, EscalationCase.resolved, readOpen]
      rw [closed] at isOpen
      cases isOpen
    · rw [if_neg (by simpa using hit)] at isOld
      subst isOld
      obtain ⟨again, againSome, againId⟩ := lifts.reads backed found oldIn own isOpen
      rw [readSome] at againSome
      cases againSome
      exact hit againId.symm

theorem Backed.lockedWhileOpen (backed : Backed after now) (locked : LockedWhileOpen now) :
    LockedWhileOpen (now.committed after.connection) := by
  rw [committed_eq]
  intro case caseIn isOpen driver driverIn own
  change case ∈ (now.db.after after.writes).cases at caseIn
  change driver ∈ (now.db.after after.writes).drivers at driverIn
  cases backed.deed with
  | calm all =>
      obtain ⟨cases, drivers⟩ := calm_after all now.db
      rw [cases] at caseIn
      obtain ⟨owner, ownerIn, isOwner, _⟩ := backed.consistent.owned case caseIn
      obtain ⟨later, laterIn, same⟩ := drivers owner ownerIn
      have isLater : later = driver := by
        refine Table.eq_of_key laterIn driverIn ?_
        simp only [Driver.key_eq]
        rw [same.id, isOwner, own]
      rw [← isLater, same.isAuthorizedToDrive]
      exact locked case caseIn isOpen owner ownerIn isOwner
  | locksOut companyId triggerCheckId recipients copy row load lock entry alert new createdAt ids
      first staged locks other whole =>
      obtain ⟨found, drivers, cases, _⟩ := locks.tables backed other whole
      rw [drivers] at driverIn
      obtain ⟨old, oldIn, isOld⟩ := (Table.mem_update (by simp)).mp driverIn
      by_cases hit : old.id = copy.id
      · rw [if_pos (by simpa using hit)] at isOld
        have isCopy : old = copy := Table.eq_of_key oldIn (Table.mem_of_find found) hit
        rw [isOld, isCopy]
        exact Driver.changed_locked
      · rw [if_neg (by simpa using hit)] at isOld
        subst isOld
        rw [cases] at caseIn
        rcases Table.mem_insert.mp caseIn with before | ⟨rfl, _⟩
        · exact locked case before isOpen driver oldIn own
        · exact absurd (own.trans locks.own) hit
  | lifts resolvedById copy load seen first resolving lifts other whole =>
      rcases lifts.drivers backed other whole with ⟨clear, unchanged⟩ | ⟨found, drivers⟩
      · rw [unchanged] at driverIn
        obtain ⟨old, oldIn, _, oldDriver, oldOpen⟩ :=
          open_after (lifts.opensNothing other whole) caseIn isOpen
        exact locked old oldIn oldOpen driver driverIn (own.trans oldDriver.symm)
      · rw [drivers] at driverIn
        obtain ⟨old, oldIn, isOld⟩ := (Table.mem_update (by simp)).mp driverIn
        by_cases hit : old.id = copy.id
        · rw [if_pos (by simpa using hit)] at isOld
          have isCopy : case.driverId = copy.id := by
            rw [← own, isOld]
            exact hit
          exact absurd isOpen (lifts.closes backed other whole found caseIn isCopy)
        · rw [if_neg (by simpa using hit)] at isOld
          subst isOld
          obtain ⟨before, beforeIn, _, beforeDriver, beforeOpen⟩ :=
            open_after (lifts.opensNothing other whole) caseIn isOpen
          exact locked before beforeIn beforeOpen driver oldIn (own.trans beforeDriver.symm)
  | sweeps instant today claim claims all =>
      rw [sweep_drivers all] at driverIn
      obtain ⟨old, oldIn, _, oldDriver, oldOpen⟩ :=
        open_after (sweep_opensNothing all) caseIn isOpen
      exact locked old oldIn oldOpen driver driverIn (own.trans oldDriver.symm)

section Runs

variable (sha256 : Str → Str) (validateKennzeichen : Str → Option Str)

theorem lockedDiscipline (policy : Policy World Memory Connection Statement Env Request) :
    Discipline (system sha256 validateKennzeichen) policy readCommitted
      (fun world => Consistent world ∧ LockedWhileOpen world) Evolves :=
  (lockoutDiscipline sha256 validateKennzeichen policy).strengthen
    (fun _ _ locked => locked)
    fun commits => (Backed.of_commits (fun _ inv => inv.1) commits).lockedWhileOpen commits.nowInv.2

/-- **Safety.** In every state that any interleaving of the transactions reaches, a
driver with an OPEN case is not cleared to drive. -/
theorem open_case_keeps_locked {world : World} (consistent : Consistent world)
    (locked : LockedWhileOpen world)
    {config : Config World Memory Connection Statement Answer Env Error Request Outcome}
    (reached : Reachable (system sha256 validateKennzeichen) .unrestricted ⟨world, [], []⟩ config) :
    LockedWhileOpen config.world := by
  have sound := Sound.reachable (system_laws sha256 validateKennzeichen)
    (lockedDiscipline sha256 validateKennzeichen .unrestricted) (.quiet ⟨consistent, locked⟩)
    reached
  exact sound.1.inv.2

end Runs

/-! ### A fleet of one driver -/

def fleetId (number : Nat) : Uuid :=
  ⟨BitVec.ofNat 128 number⟩

def fleetOwner : AccountUser where
  id := fleetId 1
  companyId := fleetId 100
  email := "chef@spedition.de".toList
  role := .owner
  phoneE164 := some "+4930123456".toList
  isActive := true
  passwordHash := none

def fleetDriver : Driver :=
  .created (fleetId 2) (fleetId 100) "Erika".toList "Muster".toList none

/-- A company with one account and one driver, on 1970-01-01. -/
def fleetWorld : World where
  db :=
    { Db.empty with
      accountUsers := Table.empty.insert fleetOwner
      drivers := Table.empty.insert fleetDriver }
  clock := 1767225600

def fleetEnv (number : Nat) : Env where
  now := 1767225600 + number
  fresh := fleetId (1000 + number)
  pick := 0
  delivery := .delivered []

def fleetRun (index first steps : Nat) : List (Library.Choice Env Request) :=
  (List.range steps).map fun step => .run index (fleetEnv (first + step))

def fleetCheck (result : Str) : Request :=
  .recordDriverCheck fleetOwner (fleetId 2)
    [("result".toList, result), ("performed_on".toList, "2026-01-01".toList)]

theorem fleetWorld_cases (case : EscalationCase) : case ∉ fleetWorld.db.cases :=
  List.not_mem_nil

theorem fleetWorld_consistent : Consistent fleetWorld where
  unique first member := absurd member (fleetWorld_cases first)
  owned case member := absurd member (fleetWorld_cases case)
  past := by
    intro driver member instant locked
    have isDriver : driver ∈ [fleetDriver] := member
    rw [List.mem_singleton.mp isDriver] at locked
    cases locked

/-- A FAILED check alone. -/
theorem open_case_keeps_locked_failed :
    ∃ config, (system id some).schedule ⟨fleetWorld, [], []⟩
        (.start (fleetCheck "FAILED".toList) :: fleetRun 0 1 46 ++ [.finish 0]) = some config ∧
      LockedWhileOpen config.world := by
  obtain ⟨config, ran⟩ := Option.isSome_iff_exists.mp (by decide +kernel :
    ((system id some).schedule ⟨fleetWorld, [], []⟩
      (.start (fleetCheck "FAILED".toList) :: fleetRun 0 1 46 ++ [.finish 0])).isSome = true)
  exact ⟨config, ran, open_case_keeps_locked id some fleetWorld_consistent
    (fun case member => absurd member (fleetWorld_cases case)) (.of_schedule ran)⟩

end Fristenwaechter
