import Fristenwaechter.Lockout.Safety

/-!
Owns when a locked driver has an outstanding case. A PASSED check that closes a case
while its copy of the driver shows no lock emits no UPDATE of the driver, so the driver
stays locked; without such a commit every locked driver's latest case is OPEN or
BREACHED, and a check that closes a case clears its driver.
-/

namespace Fristenwaechter

open Library (Commits Config Discipline Policy Reachable Sound Table)
open Library.Table (Carries)

variable {now : World} {after : Session}

/-- The case of a driver that was opened last. -/
def Db.latestCase (db : Db) (driverId : Uuid) : Option EscalationCase :=
  (db.cases.rows.filter fun row => row.driverId = driverId).getLast?

/-- A status that calls for an action. -/
def EscalationStatus.Outstanding (status : EscalationStatus) : Prop :=
  status = .open ∨ status = .breached

/-- The latest case of every locked driver is outstanding. -/
def LockedHasCase (world : World) : Prop :=
  ∀ driver ∈ world.db.drivers, driver.isAuthorizedToDrive = false →
    ∃ case, world.db.latestCase driver.id = some case ∧ case.status.Outstanding

theorem latestCase_insert {db changed : Db} {case : EscalationCase}
    (fresh : db.cases.find case.id = none) (cases : changed.cases = db.cases.insert case)
    (driverId : Uuid) :
    changed.latestCase driverId =
      if case.driverId = driverId then some case else db.latestCase driverId := by
  unfold Db.latestCase
  rw [cases, Table.insert_rows (by simpa using fresh), List.filter_append]
  by_cases own : case.driverId = driverId
  · simp [own]
  · simp [own]

theorem latestCase_update {db changed : Db} {loaded current : EscalationCase}
    (cases : changed.cases = db.cases.update loaded.id (EscalationCase.changed loaded current))
    (driverId : Uuid) :
    changed.latestCase driverId = (db.latestCase driverId).map fun row =>
      if row.id = loaded.id then EscalationCase.changed loaded current row else row := by
  unfold Db.latestCase
  rw [cases, Table.update_rows (by simp), List.filter_map, List.getLast?_map]
  congr 2
  refine List.filter_congr fun row _ => ?_
  simp only [Function.comp, EscalationCase.key_eq]
  split <;> rfl

theorem latestCase_mem {db : Db} {driverId : Uuid} {case : EscalationCase}
    (latest : db.latestCase driverId = some case) :
    case ∈ db.cases ∧ case.driverId = driverId := by
  have member := List.mem_of_getLast? latest
  simpa [Table.mem_iff] using member

/-! ### Deed by deed -/

theorem calm_origin {writes : List Write} (calm : ∀ write ∈ writes, write.Calm) (db : Db)
    {later : Driver} (member : later ∈ (db.after writes).drivers)
    (locked : later.isAuthorizedToDrive = false) :
    ∃ row ∈ db.drivers, row.id = later.id ∧ row.isAuthorizedToDrive = false := by
  induction writes generalizing db with
  | nil => exact ⟨later, member, rfl, locked⟩
  | cons write rest inductionHypothesis =>
      obtain ⟨middle, middleIn, same, middleLocked⟩ := inductionHypothesis
        (fun other isIn => calm other (by simp [isIn])) (write.apply db) member
      have own := calm write (by simp)
      cases write with
      | insertDriver row =>
          rcases Table.mem_insert.mp middleIn with old | ⟨rfl, _⟩
          · exact ⟨middle, old, same, middleLocked⟩
          · rw [own.1] at middleLocked
            cases middleLocked
      | updateDriver loaded current =>
          obtain ⟨row, rowIn, rfl⟩ := (Table.mem_update (by simp)).mp middleIn
          refine ⟨row, rowIn, ?_, ?_⟩
          · rw [← same]
            split <;> rfl
          · split at middleLocked
            · simpa only [Driver.changed, column, if_pos own.1] using middleLocked
            · exact middleLocked
      | insertCase row => exact own.elim
      | updateCase change => exact own.elim
      | _ => exact ⟨middle, middleIn, same, middleLocked⟩

/-- The writes of a sweep keep every outstanding case outstanding. -/
theorem sweep_latestCase {instant : Instant} {today : Date} {cases : List EscalationCase}
    (allOpen : ∀ case ∈ cases, case.status = .open) {writes : List Write}
    (all : ∀ write ∈ writes, SweepWrite instant today cases write) {db : Db} {driverId : Uuid}
    {case : EscalationCase} (latest : db.latestCase driverId = some case)
    (outstanding : case.status.Outstanding) :
    ∃ later, (db.after writes).latestCase driverId = some later ∧ later.status.Outstanding := by
  induction writes generalizing db case with
  | nil => exact ⟨case, latest, outstanding⟩
  | cons write rest inductionHypothesis =>
      have others : ∀ other ∈ rest, SweepWrite instant today cases other :=
        fun other member => all other (by simp [member])
      cases all write (by simp) with
      | breach claimed isClaimed late =>
          have moved : ((Write.updateCase claimed.breach).apply db).latestCase driverId = _ :=
            latestCase_update rfl driverId
          rw [latest, Option.map_some] at moved
          refine inductionHypothesis others moved ?_
          split
          · exact .inr (by simp [EscalationCase.changed, column, EscalationCase.breach,
              allOpen claimed isClaimed])
          · exact outstanding
      | nag claimed isClaimed inTime =>
          have moved :
              ((Write.updateCase (claimed.nagged today)).apply db).latestCase driverId = _ :=
            latestCase_update rfl driverId
          rw [latest, Option.map_some] at moved
          refine inductionHypothesis others moved ?_
          split
          · simpa [EscalationCase.changed, column, EscalationCase.nagged] using outstanding
          · exact outstanding
      | breachMessage => exact inductionHypothesis others latest outstanding
      | nagMessage => exact inductionHypothesis others latest outstanding

theorem claimableCases_open (claim : Sent) :
    ∀ case ∈ claim.claimableCases, case.status = .open := by
  intro case member
  have holds := (List.mem_filter.mp member).2
  simp only [Bool.and_eq_true, decide_eq_true_eq] at holds
  exact holds.1.2

/-! ### Runs without blind resolutions -/

/-- The OPEN case of a driver is looked up from a session whose copy of the driver shows
no lock, although one of its cases is OPEN. -/
def ReadsBlindly (entry : Sent) : Prop :=
  match entry.statement with
  | .openCase driverId =>
      (∃ copy ∈ entry.memory.drivers, copy.id = driverId ∧ copy.unlocked = copy) ∧
        ∃ case ∈ entry.world.db.cases.rows, case.driverId = driverId ∧ case.status = .open
  | _ => False

instance (entry : Sent) : Decidable (ReadsBlindly entry) := by
  unfold ReadsBlindly
  split <;> infer_instance

/-- The runs in which no transaction commits after such a lookup. -/
def sighted : Policy World Memory Connection Statement Env Request where
  starts _ _ := True
  calls _ _ := True
  commits _ _ transaction := ∀ entry ∈ transaction.trace, ¬ ReadsBlindly entry
  aborts _ _ _ := True

section LiftsLock

variable {resolvedById : Option Uuid} {driver : Driver} {load seen : Sent}
variable {first resolving : List Write}

/-- A sighted lift that finds a case has a copy that shows the lock. -/
theorem LiftsLock.sighted (lifts : LiftsLock resolvedById after.trace driver load seen resolving)
    (sees : ∀ entry ∈ after.trace, ¬ ReadsBlindly entry) {case : EscalationCase}
    (read : seen.openCase driver.id = some case) : driver.unlocked ≠ driver := by
  intro clear
  obtain ⟨caseIn, own, isOpen⟩ := openCase_spec lifts.unwritten read
  refine sees seen (lifts.order.subset (List.mem_cons_of_mem _ (List.mem_cons_self))) ?_
  rw [ReadsBlindly, lifts.asked]
  exact ⟨⟨driver, lifts.remembered, rfl, clear⟩, case, caseIn, own, isOpen⟩

theorem changed_unlocked (driver : Driver) :
    (Driver.changed driver driver.unlocked driver).isAuthorizedToDrive = true := by
  simp only [Driver.changed, Driver.unlocked, column]
  cases driver.isAuthorizedToDrive <;> rfl

theorem LiftsLock.readCase (backed : Backed after now)
    (lifts : LiftsLock resolvedById after.trace driver load seen resolving)
    {read case : EscalationCase} (found : seen.openCase driver.id = some read)
    (member : case ∈ now.db.cases) (same : case.id = read.id) : case.driverId = driver.id := by
  obtain ⟨readIn, own, _⟩ := openCase_spec lifts.unwritten found
  obtain ⟨_, _, evolves⟩ := backed.seen seen
    (lifts.order.subset (List.mem_cons_of_mem _ (List.mem_cons_self)))
  obtain ⟨later, laterIn, follows⟩ := evolves.persists.cases read readIn
  have isLater : case = later := Table.eq_of_key member laterIn (same.trans follows.id.symm)
  rw [isLater, follows.driverId, own]

end LiftsLock

theorem Backed.lockedHasCase (backed : Backed after now)
    (sees : ∀ entry ∈ after.trace, ¬ ReadsBlindly entry) (hasCase : LockedHasCase now) :
    LockedHasCase (now.committed after.connection) := by
  rw [committed_eq]
  intro driver driverIn locked
  change driver ∈ (now.db.after after.writes).drivers at driverIn
  change ∃ case, (now.db.after after.writes).latestCase driver.id = some case ∧ _
  cases backed.deed with
  | calm all =>
      obtain ⟨old, oldIn, same, oldLocked⟩ := calm_origin all now.db driverIn locked
      obtain ⟨case, latest, outstanding⟩ := hasCase old oldIn oldLocked
      refine ⟨case, ?_, outstanding⟩
      rw [Db.latestCase, (calm_after all now.db).1, ← same]
      exact latest
  | locksOut companyId triggerCheckId recipients copy row load lock entry alert new createdAt ids
      first staged locks other whole =>
      obtain ⟨found, drivers, cases, fresh⟩ := locks.tables backed other whole
      rw [latestCase_insert fresh cases, locks.own]
      by_cases own : copy.id = driver.id
      · rw [if_pos own]
        exact ⟨new, rfl, .inl locks.isOpen⟩
      · rw [if_neg own]
        rw [drivers] at driverIn
        obtain ⟨old, oldIn, isOld⟩ := (Table.mem_update (by simp)).mp driverIn
        by_cases hit : old.id = copy.id
        · rw [if_pos (by simpa using hit)] at isOld
          refine absurd ?_ own
          rw [isOld]
          exact hit.symm
        · rw [if_neg (by simpa using hit)] at isOld
          subst isOld
          exact hasCase driver oldIn locked
  | lifts resolvedById copy load seen first resolving lifts other whole =>
      -- a driver that is still locked is another one, or no case was found for it
      have carried : driver ∈ now.db.drivers ∧
          (driver.id = copy.id → seen.openCase copy.id = none) := by
        rcases lifts.drivers backed other whole with ⟨clear, unchanged⟩ | ⟨found, drivers⟩
        · rw [unchanged] at driverIn
          refine ⟨driverIn, fun _ => ?_⟩
          cases read : seen.openCase copy.id with
          | none => rfl
          | some case => exact absurd clear (lifts.sighted sees read)
        · rw [drivers] at driverIn
          obtain ⟨old, oldIn, isOld⟩ := (Table.mem_update (by simp)).mp driverIn
          by_cases hit : old.id = copy.id
          · rw [if_pos (by simpa using hit)] at isOld
            rw [isOld, Table.eq_of_key oldIn (Table.mem_of_find found) hit,
              changed_unlocked] at locked
            cases locked
          · rw [if_neg (by simpa using hit)] at isOld
            subst isOld
            exact ⟨oldIn, fun same => absurd same hit⟩
      obtain ⟨case, latest, outstanding⟩ := hasCase driver carried.1 locked
      obtain ⟨caseIn, own⟩ := latestCase_mem latest
      rcases lifts.cases now.db other whole with ⟨_, unchanged⟩ |
        ⟨read, instant, found, _, updated⟩
      · rw [Db.latestCase, unchanged]
        exact ⟨case, latest, outstanding⟩
      · rw [latestCase_update updated, latest, Option.map_some]
        refine ⟨_, rfl, ?_⟩
        split
        · rename_i hit
          have same := carried.2 (own.symm.trans (lifts.readCase backed found caseIn hit))
          rw [found] at same
          cases same
        · exact outstanding
  | sweeps instant today claim claims all =>
      rw [sweep_drivers all] at driverIn
      obtain ⟨case, latest, outstanding⟩ := hasCase driver driverIn locked
      exact sweep_latestCase (claimableCases_open claim) all latest outstanding

theorem Backed.clears (backed : Backed after now)
    (sees : ∀ entry ∈ after.trace, ¬ ReadsBlindly entry) {change : CaseChange}
    (closed : .updateCase change ∈ after.writes) (passed : change.current.status = .resolvedPassed)
    {driver : Driver} (member : driver ∈ (now.db.after after.writes).drivers)
    (own : driver.id = change.loaded.driverId) : driver.isAuthorizedToDrive = true := by
  cases backed.deed with
  | calm all => exact (all _ closed).elim
  | locksOut companyId triggerCheckId recipients copy row load lock entry alert new createdAt ids
      first staged locks other whole =>
      rw [locks.writes backed whole] at closed
      rcases List.mem_append.mp closed with isFirst | isStaged
      · exact absurd rfl (other _ isFirst).2
      · simp only [List.mem_cons, reduceCtorEq, false_or] at isStaged
        exact absurd rfl (tellWrites_elsewhere _ isStaged).2
  | lifts resolvedById copy load seen first resolving lifts other whole =>
      have isResolving : .updateCase change ∈ resolving := by
        rw [whole] at closed
        rcases List.mem_append.mp closed with isFirst | isLift
        · exact absurd rfl (other _ isFirst).2
        · rcases List.mem_append.mp isLift with update | resolve
          · cases Driver.mem_update update
          · exact resolve
      have resolves := lifts.resolves
      cases read : seen.openCase copy.id with
      | none =>
          rw [read] at resolves
          cases resolves
          cases isResolving
      | some case =>
          rw [read] at resolves
          cases resolves
          have isChange := List.mem_singleton.mp isResolving
          cases isChange
          have caseOwn := (openCase_spec lifts.unwritten read).2.1
          rcases lifts.drivers backed other whole with ⟨clear, _⟩ | ⟨found, drivers⟩
          · exact absurd clear (lifts.sighted sees read)
          · rw [drivers] at member
            obtain ⟨old, oldIn, isOld⟩ := (Table.mem_update (by simp)).mp member
            have hit : old.id = copy.id := by
              have same : driver.id = copy.id := own.trans caseOwn
              rw [isOld] at same
              split at same <;> exact same
            rw [if_pos (by simpa using hit)] at isOld
            rw [isOld, Table.eq_of_key oldIn (Table.mem_of_find found) hit]
            exact changed_unlocked copy
  | sweeps instant today claim claims all =>
      cases all _ closed with
      | breach => cases passed
      | nag case claimed =>
          have isOpen := claimableCases_open claim case claimed
          change case.status = .resolvedPassed at passed
          rw [isOpen] at passed
          cases passed

section Runs

variable (sha256 : Str → Str) (validateKennzeichen : Str → Option Str)

theorem outstandingDiscipline :
    Discipline (system sha256 validateKennzeichen) sighted readCommitted
      (fun world => Consistent world ∧ LockedHasCase world) Evolves :=
  (lockoutDiscipline sha256 validateKennzeichen sighted).strengthen
    (fun _ _ hasCase => hasCase)
    fun commits => (Backed.of_commits (fun _ inv => inv.1) commits).lockedHasCase commits.commits
      commits.nowInv.2

/-- **Outstanding cases.** In every state that a sighted run reaches, the latest case of
every locked driver is OPEN or BREACHED, and every commit that has closed a case as passed
has left its driver cleared. -/
theorem locked_driver_has_case {world : World} (consistent : Consistent world)
    (hasCase : LockedHasCase world)
    {config : Config World Memory Connection Statement Answer Env Error Request Outcome}
    (reached : Reachable (system sha256 validateKennzeichen) sighted ⟨world, [], []⟩ config) :
    LockedHasCase config.world ∧
      ∀ ended ∈ config.ended, ∀ result, ended.outcome = some (.ok result) →
        ∀ change : CaseChange, .updateCase change ∈ ended.transaction.connection.journal.writes →
          change.current.status = .resolvedPassed →
          ∀ driver ∈ ((system sha256 validateKennzeichen).leave ended).db.drivers,
            driver.id = change.loaded.driverId → driver.isAuthorizedToDrive = true := by
  obtain ⟨sound, _⟩ := Sound.reachable (system_laws sha256 validateKennzeichen)
    (outstandingDiscipline sha256 validateKennzeichen) (.quiet ⟨consistent, hasCase⟩) reached
  refine ⟨sound.inv.2, fun ended member result well change closed passed driver driverIn own => ?_⟩
  obtain ⟨start, commits⟩ := (sound.concluded ended member).commits well
  have backed := Backed.of_commits (fun _ inv => inv.1) commits
  refine backed.clears commits.commits closed passed ?_ own
  rw [Library.Engine.leave, well] at driverIn
  exact driverIn

end Runs

/-- A FAILED check, then a PASSED one. -/
theorem locked_driver_has_case_serial :
    ∃ config, (system id some).checkedSchedule
        (Policy.check (fun _ _ => true) (fun _ _ => true)
          (fun _ _ transaction => transaction.trace.all fun entry => ¬ ReadsBlindly entry) true)
        ⟨fleetWorld, [], []⟩
        (.start (fleetCheck "FAILED".toList) :: fleetRun 0 1 46 ++ .finish 0 ::
          .start (fleetCheck "PASSED".toList) :: fleetRun 0 50 25 ++ [.finish 0]) = some config ∧
      LockedHasCase config.world := by
  obtain ⟨config, ran⟩ := Option.isSome_iff_exists.mp (by decide +kernel :
    ((system id some).checkedSchedule
        (Policy.check (fun _ _ => true) (fun _ _ => true)
          (fun _ _ transaction => transaction.trace.all fun entry => ¬ ReadsBlindly entry) true)
        ⟨fleetWorld, [], []⟩
        (.start (fleetCheck "FAILED".toList) :: fleetRun 0 1 46 ++ .finish 0 ::
          .start (fleetCheck "PASSED".toList) :: fleetRun 0 50 25 ++ [.finish 0])).isSome = true)
  have unlocked : LockedHasCase fleetWorld := by
    intro driver member locked
    have isDriver : driver ∈ [fleetDriver] := member
    rw [List.mem_singleton.mp isDriver] at locked
    cases locked
  refine ⟨config, ran, (locked_driver_has_case id some fleetWorld_consistent unlocked
    (Reachable.of_checked (fun checked => Policy.allows_of_check ?_ ?_ ?_ ?_ checked) ran)).1⟩
  · exact fun _ _ _ => trivial
  · exact fun _ _ _ => trivial
  · exact fun _ _ _ checked entry member => by simpa using List.all_eq_true.mp checked entry member
  · exact fun _ _ _ _ => trivial

/-- A PASSED check that has loaded the driver before a FAILED one commits closes the
case of that check and leaves the driver locked. -/
theorem blind_resolution_keeps_lock :
    ¬ ∀ config, Reachable (system id some) .unrestricted ⟨fleetWorld, [], []⟩ config →
      LockedHasCase config.world := by
  intro claimed
  have violated : ((system id some).schedule ⟨fleetWorld, [], []⟩
      (.start (fleetCheck "PASSED".toList) :: fleetRun 0 1 6 ++
        .start (fleetCheck "FAILED".toList) :: fleetRun 1 10 46 ++ .finish 1 ::
        fleetRun 0 60 18 ++ [.finish 0])).any (fun config =>
      config.world.db.drivers.rows.any fun driver => !driver.isAuthorizedToDrive &&
        (config.world.db.latestCase driver.id).all fun case =>
          case.status = .resolvedPassed) = true := by
    decide +kernel
  obtain ⟨config, ran, locked⟩ := (Option.any_eq_true _ _).mp violated
  obtain ⟨driver, member, both⟩ := List.any_eq_true.mp locked
  simp only [Bool.and_eq_true, Bool.not_eq_true', Option.all_eq_true, decide_eq_true_eq] at both
  obtain ⟨case, latest, outstanding⟩ := claimed config (.of_schedule ran) driver member both.1
  rcases outstanding with isOpen | breached
  · rw [both.2 case latest] at isOpen
    cases isOpen
  · rw [both.2 case latest] at breached
    cases breached

end Fristenwaechter
