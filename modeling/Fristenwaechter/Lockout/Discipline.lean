import Fristenwaechter.Lockout.Deeds
import Fristenwaechter.Persistence

/-!
Owns the discipline of locks and cases that every run follows: at most one OPEN case
per driver, each case in the company of its driver, no lock from the future; and a case
can only become OPEN in a commit that also bumps the version of its driver.
-/

namespace Fristenwaechter

open Library (Journal Table Commits Chain Discipline Policy)

/-- What holds of drivers and cases in every committed state. -/
structure Consistent (world : World) : Prop where
  unique : ∀ first ∈ world.db.cases, ∀ second ∈ world.db.cases,
    first.driverId = second.driverId → first.status = .open → second.status = .open →
      first = second
  owned : ∀ case ∈ world.db.cases, ∃ driver ∈ world.db.drivers,
    driver.id = case.driverId ∧ driver.companyId = case.companyId
  past : ∀ driver ∈ world.db.drivers, ∀ instant, driver.lockedAt = some instant →
    instant ≤ world.clock

/-- How committed states follow each other. -/
structure Evolves (before after : World) : Prop where
  clock : before.clock ≤ after.clock
  persists : Persists before.db after.db
  bumped : ∀ case ∈ after.db.cases, case.status = .open →
    (∃ old ∈ before.db.cases, old.id = case.id ∧ old.driverId = case.driverId ∧
      old.status = .open) ∨
    ∀ row ∈ before.db.drivers, row.id = case.driverId →
      ∃ later ∈ after.db.drivers, later.id = row.id ∧ row.versionId < later.versionId

theorem Evolves.refl (world : World) : Evolves world world :=
  ⟨le_refl _, .refl _, fun case member isOpen => .inl ⟨case, member, rfl, rfl, isOpen⟩⟩

theorem Evolves.trans {first second third : World} (one : Evolves first second)
    (two : Evolves second third) : Evolves first third := by
  refine ⟨one.clock.trans two.clock, one.persists.trans two.persists, ?_⟩
  intro case member isOpen
  rcases two.bumped case member isOpen with ⟨old, oldIn, oldId, oldDriver, oldOpen⟩ | bumped
  · rcases one.bumped old oldIn oldOpen with ⟨first, firstIn, firstId, firstDriver, firstOpen⟩ |
      bumped
    · exact .inl ⟨first, firstIn, firstId.trans oldId, firstDriver.trans oldDriver, firstOpen⟩
    · refine .inr fun row rowIn own => ?_
      obtain ⟨middle, middleIn, middleId, version⟩ := bumped row rowIn (own.trans oldDriver.symm)
      obtain ⟨later, laterIn, follows⟩ := two.persists.drivers middle middleIn
      exact ⟨later, laterIn, follows.id.trans middleId, version.trans_le follows.version⟩
  · refine .inr fun row rowIn own => ?_
    obtain ⟨middle, middleIn, follows⟩ := one.persists.drivers row rowIn
    obtain ⟨later, laterIn, laterId, version⟩ := bumped middle middleIn (follows.id.trans own)
    exact ⟨later, laterIn, laterId.trans follows.id, follows.version.trans_lt version⟩

theorem Evolves.tick (world : World) {instant : Instant} (ticks : world.clock < instant) :
    Evolves world { world with clock := instant } :=
  ⟨Int.le_of_lt ticks, .refl _, fun case member isOpen => .inl ⟨case, member, rfl, rfl, isOpen⟩⟩

theorem Consistent.tick {world : World} (consistent : Consistent world) {instant : Instant}
    (ticks : world.clock < instant) : Consistent { world with clock := instant } :=
  ⟨consistent.unique, consistent.owned, fun driver member locked same =>
    (consistent.past driver member locked same).trans (Int.le_of_lt ticks)⟩

/-! ### Consistent commits -/

/-- What a write must not do on its own: lock in the future, or open a case without its
driver. -/
def Write.Sane (db : Db) (clock : Instant) : Write → Prop
  | .insertDriver row => ∀ instant, row.lockedAt = some instant → instant ≤ clock
  | .updateDriver loaded current =>
      current.lockedAt = loaded.lockedAt ∨
        ∀ instant, current.lockedAt = some instant → instant ≤ clock
  | .insertCase row =>
      ∃ driver ∈ db.drivers, driver.id = row.driverId ∧ driver.companyId = row.companyId
  | _ => True

theorem Write.Sane.later {write : Write} {before after : Db} {clock : Instant}
    (persists : Persists before after) (sane : write.Sane before clock) :
    write.Sane after clock := by
  cases write with
  | insertCase row =>
      obtain ⟨driver, member, own, company⟩ := sane
      obtain ⟨later, laterIn, follows⟩ := persists.drivers driver member
      exact ⟨later, laterIn, follows.id.trans own, follows.companyId.trans company⟩
  | _ => exact sane

theorem Consistent.of_carried {before after : Db} {clock : Instant}
    (consistent : Consistent ⟨before, clock⟩) (persists : Persists before after)
    (origins : ∀ case ∈ after.cases, ∃ old ∈ before.cases, old.Later case)
    (past : ∀ driver ∈ after.drivers, ∀ instant, driver.lockedAt = some instant →
      instant ≤ clock) : Consistent ⟨after, clock⟩ := by
  refine ⟨?_, ?_, past⟩
  · intro first firstIn second secondIn same firstOpen secondOpen
    obtain ⟨oldFirst, oldFirstIn, toFirst⟩ := origins first firstIn
    obtain ⟨oldSecond, oldSecondIn, toSecond⟩ := origins second secondIn
    have oldSame := consistent.unique oldFirst oldFirstIn oldSecond oldSecondIn
      (by rw [← toFirst.driverId, ← toSecond.driverId, same]) (toFirst.closed firstOpen)
      (toSecond.closed secondOpen)
    refine Table.eq_of_key firstIn secondIn ?_
    simp only [EscalationCase.key_eq]
    rw [toFirst.id, toSecond.id, oldSame]
  · intro case member
    obtain ⟨old, oldIn, toCase⟩ := origins case member
    obtain ⟨driver, driverIn, own, company⟩ := consistent.owned old oldIn
    obtain ⟨later, laterIn, follows⟩ := persists.drivers driver driverIn
    refine ⟨later, laterIn, ?_, ?_⟩
    · rw [follows.id, own, toCase.driverId]
    · rw [follows.companyId, company, toCase.companyId]

theorem insertCase_valid {row : EscalationCase} {db : Db}
    (valid : (Write.insertCase row).check db = .ok ()) :
    db.cases.find row.id = none ∧
      ∀ stored ∈ db.cases, stored.driverId = row.driverId → stored.status ≠ .open := by
  simp only [Write.check, requireNew, EscalationCase.key_eq, require_then_eq_ok, require_eq_ok,
    Option.isNone_iff_eq_none, List.all_eq_true, decide_eq_true_eq, not_and] at valid
  exact ⟨valid.1, fun stored member => valid.2 stored member⟩

theorem Consistent.write {write : Write} {db : Db} {clock : Instant}
    (consistent : Consistent ⟨db, clock⟩) (valid : write.check db = .ok ())
    (sane : write.Sane db clock) : Consistent ⟨write.apply db, clock⟩ := by
  have persists := Write.persists valid
  have itself : ∀ case ∈ db.cases, ∃ old ∈ db.cases, old.Later case :=
    fun case member => ⟨case, member, .refl case⟩
  cases write with
  | insertDriver row =>
      refine consistent.of_carried persists itself fun driver member instant same => ?_
      rcases Table.mem_insert.mp member with old | ⟨rfl, _⟩
      · exact consistent.past driver old instant same
      · exact sane instant same
  | updateDriver loaded current =>
      refine consistent.of_carried persists itself fun driver member instant same => ?_
      obtain ⟨row, rowIn, rfl⟩ := (Table.mem_update (by simp)).mp member
      split at same
      · simp only [Driver.changed, column] at same
        split at same
        · exact consistent.past row rowIn instant same
        · rcases sane with unchanged | bounded
          · contradiction
          · exact bounded instant same
      · exact consistent.past row rowIn instant same
  | insertCase row =>
      obtain ⟨_, free⟩ := insertCase_valid valid
      refine ⟨?_, ?_, consistent.past⟩
      · intro first firstIn second secondIn same firstOpen secondOpen
        rcases Table.mem_insert.mp firstIn with firstOld | ⟨rfl, _⟩ <;>
          rcases Table.mem_insert.mp secondIn with secondOld | ⟨rfl, _⟩
        · exact consistent.unique first firstOld second secondOld same firstOpen secondOpen
        · exact absurd firstOpen (free first firstOld same)
        · exact absurd secondOpen (free second secondOld same.symm)
        · rfl
      · intro case member
        rcases Table.mem_insert.mp member with old | ⟨rfl, _⟩
        · exact consistent.owned case old
        · exact sane
  | updateCase change =>
      refine consistent.of_carried persists ?_ consistent.past
      intro case member
      obtain ⟨row, rowIn, rfl⟩ := (Table.mem_update (by simp)).mp member
      refine ⟨row, rowIn, ?_⟩
      split
      · exact updateCase_later change row
      · exact .refl row
  | _ => exact ⟨consistent.unique, consistent.owned, consistent.past⟩

theorem Consistent.after {writes : List Write} {db : Db} {clock : Instant}
    (consistent : Consistent ⟨db, clock⟩) (replays : Journal.Replays writes db)
    (sane : ∀ write ∈ writes, write.Sane db clock) : Consistent ⟨db.after writes, clock⟩ := by
  induction writes generalizing db with
  | nil => exact consistent
  | cons write rest inductionHypothesis =>
      have persists := Write.persists replays.1
      refine inductionHypothesis (consistent.write replays.1 (sane write (by simp))) replays.2 ?_
      exact fun other member => (sane other (by simp [member])).later persists

/-! ### Evolving commits -/

/-- Without an INSERT of a case nothing becomes OPEN. -/
theorem open_after {writes : List Write} {db : Db} {case : EscalationCase}
    (none : ∀ write ∈ writes, ∀ row, write ≠ .insertCase row)
    (member : case ∈ (db.after writes).cases) (isOpen : case.status = .open) :
    ∃ old ∈ db.cases, old.id = case.id ∧ old.driverId = case.driverId ∧ old.status = .open := by
  have keeps : Kept (.openCase case.driverId) db (db.after writes) := by
    clear member
    induction writes generalizing db with
    | nil => exact Kept.refl _ _
    | cons write rest inductionHypothesis =>
        have first : Kept (.openCase case.driverId) db (write.apply db) := by
          refine Kept.frame fun inside => ?_
          change Ref.openCase case.driverId ∈ write.footprint at inside
          cases write with
          | insertCase row => exact none _ (by simp) row rfl
          | _ => simp [Write.footprint] at inside
        exact first.trans (inductionHypothesis fun other otherIn =>
          none other (by simp [otherIn]))
  exact keeps case member rfl isOpen

theorem bumped_after {first rest : List Write} {loaded current : Driver} {db : Db}
    (replays : Journal.Replays (first ++ .updateDriver loaded current :: rest) db) {row : Driver}
    (member : row ∈ db.drivers) (own : row.id = loaded.id) :
    ∃ later ∈ (db.after (first ++ .updateDriver loaded current :: rest)).drivers,
      later.id = row.id ∧ row.versionId < later.versionId := by
  obtain ⟨replaysFirst, valid, replaysRest⟩ := Journal.replays_append.mp replays
  change (Write.updateDriver loaded current).check (db.after first) = .ok () at valid
  change Journal.Replays rest ((Write.updateDriver loaded current).apply (db.after first))
    at replaysRest
  rw [Db.after_append, Db.after_cons]
  obtain ⟨middle, middleIn, follows⟩ := (persists_after replaysFirst).drivers row member
  obtain ⟨stored, found, version⟩ := updateDriver_valid valid
  have isStored : middle = stored := by
    have looked := Table.find_of_mem middleIn
    simp only [Driver.key_eq] at looked
    rw [follows.id, own, found] at looked
    exact (Option.some.inj looked).symm
  have updated : Driver.changed loaded current middle ∈
      ((Write.updateDriver loaded current).apply (db.after first)).drivers := by
    refine (Table.mem_update (by simp)).mpr ⟨middle, middleIn, ?_⟩
    rw [if_pos (by simpa using follows.id.trans own)]
  obtain ⟨later, laterIn, laterFollows⟩ := (persists_after replaysRest).drivers _ updated
  have lower := follows.version
  have upper := laterFollows.version
  have bumped : (Driver.changed loaded current middle).versionId = middle.versionId + 1 := by
    rw [isStored, version]
    rfl
  exact ⟨later, laterIn, laterFollows.id.trans follows.id, by omega⟩

/-! ### What a commit rests on -/

/-- A commit with everything its session knows about the past. -/
structure Backed (after : Session) (now : World) : Prop where
  seen : ∀ entry ∈ after.trace, Consistent entry.world ∧ entry.world.clock < entry.env.now ∧
    Evolves { entry.world with clock := entry.env.now } now
  ordered : after.trace.Pairwise fun earlier later =>
    Evolves { earlier.world with clock := earlier.env.now } later.world
  kept : ∀ lock ∈ Journal.held Db after.connection.journal, Kept lock.1 lock.2.db now.db
  ready : Journal.Replays after.writes now.db
  consistent : Consistent now
  deed : Deed after

variable {sha256 : Str → Str} {validateKennzeichen : Str → Option Str}
variable {policy : Policy World Memory Connection Statement Env Request}
variable {Inv : World → Prop} {request : Request} {start now : World} {after : Session}
variable {result : Outcome}

theorem Backed.of_commits (weaker : ∀ world, Inv world → Consistent world)
    (commits : Commits (system sha256 validateKennzeichen) policy readCommitted Inv Evolves request
      start after result now) : Backed after now where
  seen := by
    intro entry member
    obtain ⟨inv, possible, _, _, upTo⟩ := commits.chain.seen entry member
    exact ⟨weaker _ inv, by simpa [system, serving, postgres] using possible, upTo⟩
  ordered := commits.chain.ordered
  kept := commits.chain.kept
  ready := commits.chain.ready
  consistent := weaker _ commits.nowInv
  deed := Fristenwaechter.deed commits.ends

theorem Backed.pair (backed : Backed after now) {first second : Sent}
    (order : [first, second].Sublist after.trace) :
    Evolves { first.world with clock := first.env.now } second.world := by
  have pair := backed.ordered.sublist order
  simpa using pair

/-- A copy from the trace is the committed row as long as the version is. -/
theorem Backed.copied (backed : Backed after now) {driver stored : Driver} {load : Sent}
    (sent : load ∈ after.trace) (copied : Copied driver load)
    (found : now.db.drivers.find driver.id = some stored)
    (version : stored.versionId = driver.versionId) : stored = driver := by
  obtain ⟨_, _, evolves⟩ := backed.seen load sent
  obtain ⟨later, laterIn, follows⟩ :=
    evolves.persists.drivers driver (Table.mem_of_find copied.committed)
  have isStored : later = stored := by
    have looked := Table.find_of_mem laterIn
    simp only [Driver.key_eq] at looked
    rw [follows.id, found] at looked
    exact (Option.some.inj looked).symm
  rw [← isStored]
  exact follows.same (isStored ▸ version)

section LocksOut

variable {companyId triggerCheckId : Uuid} {recipients : List Recipient} {driver row : Driver}
variable {load lock alert entry : Sent} {case : EscalationCase} {createdAt : Instant}
variable {ids : List Uuid} {staged : List Write}

theorem LocksOut.update (backed : Backed after now)
    (locks : LocksOut companyId triggerCheckId recipients after.trace driver row load lock entry
      alert case createdAt ids staged) :
    driver.update (driver.lockedAtInstant entry.env.now) =
      [.updateDriver driver (driver.lockedAtInstant entry.env.now)] := by
  have loadIn := locks.order.subset (List.mem_cons_self)
  have entryIn := locks.order.subset (List.mem_cons_of_mem _ (List.mem_cons_self))
  obtain ⟨consistent, ticks, _⟩ := backed.seen load loadIn
  obtain ⟨_, entryTicks, _⟩ := backed.seen entry entryIn
  have later := (backed.pair locks.order).clock
  change load.env.now ≤ entry.world.clock at later
  refine if_neg fun same => ?_
  have lockedAt : driver.lockedAt = some entry.env.now := by
    rw [← same]
    rfl
  have earlier := consistent.past driver (Table.mem_of_find locks.copied.committed) _ lockedAt
  exact absurd (entryTicks.trans_le (earlier.trans ((Int.le_of_lt ticks).trans later)))
    (lt_irrefl _)

theorem LocksOut.sane (backed : Backed after now)
    (locks : LocksOut companyId triggerCheckId recipients after.trace driver row load lock entry
      alert case createdAt ids staged) :
    ∀ write ∈ staged, write.Sane now.db now.clock := by
  intro write member
  rw [locks.staged, lockWrites, locks.update backed] at member
  simp only [List.cons_append, List.nil_append, List.mem_cons] at member
  rcases member with rfl | rfl | told
  · refine .inr fun instant same => ?_
    obtain ⟨_, _, evolves⟩ := backed.seen entry
      (locks.order.subset (List.mem_cons_of_mem _ (List.mem_cons_self)))
    have bound := evolves.clock
    change some entry.env.now = some instant at same
    cases same
    exact bound
  · obtain ⟨_, _, evolves⟩ := backed.seen lock locks.locked
    obtain ⟨later, laterIn, follows⟩ :=
      evolves.persists.drivers row (Table.mem_of_find locks.committed)
    have key := Table.key_of_find locks.committed
    simp only [Driver.key_eq] at key
    refine ⟨later, laterIn, ?_, ?_⟩
    · rw [follows.id, key, locks.own]
    · rw [follows.companyId, locks.company, locks.caseCompany]
  · rw [tellWrites] at told
    rcases List.mem_append.mp told with message | isAlert
    · obtain ⟨row, _, rfl⟩ := List.mem_map.mp message
      trivial
    · rw [List.mem_singleton.mp isAlert]
      trivial

end LocksOut

theorem Write.Calm.sane {write : Write} (calm : write.Calm) (db : Db) (clock : Instant) :
    write.Sane db clock := by
  cases write with
  | insertDriver row =>
      intro instant same
      rw [calm.2.2] at same
      cases same
  | updateDriver loaded current => exact .inl calm.2.2
  | insertCase row => exact calm.elim
  | _ => trivial

theorem Backed.sane (backed : Backed after now) :
    ∀ write ∈ after.writes, write.Sane now.db now.clock := by
  intro write member
  cases backed.deed with
  | calm all => exact (all write member).sane _ _
  | locksOut companyId triggerCheckId recipients driver row load lock entry alert case createdAt ids
      first staged locks other whole =>
      rw [whole] at member
      rcases List.mem_append.mp member with isFirst | isStaged
      · exact (other write isFirst).calm.sane _ _
      · exact locks.sane backed write isStaged
  | lifts resolvedById driver load seen first resolving lifts other whole =>
      rw [whole] at member
      rcases List.mem_append.mp member with isFirst | isLift
      · exact (other write isFirst).calm.sane _ _
      · rcases List.mem_append.mp isLift with update | resolve
        · rw [Driver.mem_update update]
          exact .inr fun instant same => by cases same
        · have reads := lifts.resolves
          generalize seen.openCase driver.id = found at reads
          cases reads with
          | nothing => cases resolve
          | resolved case instant =>
              rw [List.mem_singleton.mp resolve]
              trivial
  | sweeps instant today claim claims all =>
      cases all write member <;> trivial

theorem committed_eq (now : World) (after : Session) :
    now.committed after.connection = { now with db := now.db.after after.writes } :=
  rfl

section LocksOut

variable {companyId triggerCheckId : Uuid} {recipients : List Recipient} {driver row : Driver}
variable {load lock alert entry : Sent} {case : EscalationCase} {createdAt : Instant}
variable {ids : List Uuid} {first staged : List Write}

theorem LocksOut.writes (backed : Backed after now)
    (locks : LocksOut companyId triggerCheckId recipients after.trace driver row load lock entry
      alert case createdAt ids staged) (whole : after.writes = first ++ staged) :
    after.writes = first ++ .updateDriver driver (driver.lockedAtInstant entry.env.now) ::
      (.insertCase case ::
        tellWrites companyId triggerCheckId recipients createdAt driver case alert ids) := by
  rw [whole, locks.staged, lockWrites, locks.update backed]
  rfl

end LocksOut

theorem tellWrites_elsewhere {companyId triggerCheckId : Uuid} {recipients : List Recipient}
    {createdAt : Instant} {driver : Driver} {case : EscalationCase} {alert : Sent}
    {ids : List Uuid} :
    ∀ write ∈ tellWrites companyId triggerCheckId recipients createdAt driver case alert ids,
      write.Elsewhere := by
  intro write member
  rcases List.mem_append.mp member with message | isAlert
  · obtain ⟨row, _, rfl⟩ := List.mem_map.mp message
    simp [Write.Elsewhere, Write.table]
  · rw [List.mem_singleton.mp isAlert]
    simp [Write.Elsewhere, Write.table]

theorem Write.Elsewhere.not_insertCase {write : Write} (elsewhere : write.Elsewhere)
    (row : EscalationCase) : write ≠ .insertCase row := by
  rintro rfl
  exact elsewhere.2 rfl

theorem LiftsLock.not_insertCase {resolvedById : Option Uuid} {trace : List Sent}
    {driver : Driver} {load seen : Sent} {resolving : List Write}
    (lifts : LiftsLock resolvedById trace driver load seen resolving) :
    ∀ write ∈ driver.update driver.unlocked ++ resolving, ∀ row, write ≠ .insertCase row := by
  intro write member row same
  rcases List.mem_append.mp member with update | resolve
  · rw [Driver.mem_update update] at same
    cases same
  · have reads := lifts.resolves
    generalize seen.openCase driver.id = found at reads
    cases reads with
    | nothing => cases resolve
    | resolved case instant =>
        rw [List.mem_singleton.mp resolve] at same
        cases same

theorem LiftsLock.opensNothing {resolvedById : Option Uuid} {driver : Driver} {load seen : Sent}
    {first resolving : List Write}
    (lifts : LiftsLock resolvedById after.trace driver load seen resolving)
    (other : ∀ write ∈ first, write.Elsewhere)
    (whole : after.writes = first ++ (driver.update driver.unlocked ++ resolving)) :
    ∀ write ∈ after.writes, ∀ row, write ≠ .insertCase row := by
  intro write member
  rw [whole] at member
  rcases List.mem_append.mp member with isFirst | isLift
  · exact (other write isFirst).not_insertCase
  · exact lifts.not_insertCase write isLift

theorem sweep_opensNothing {instant : Instant} {today : Date} {cases : List EscalationCase}
    {writes : List Write} (all : ∀ write ∈ writes, SweepWrite instant today cases write) :
    ∀ write ∈ writes, ∀ row, write ≠ .insertCase row := by
  intro write member row same
  have sweep := all write member
  rw [same] at sweep
  cases sweep

/-- A case that is OPEN after a commit was OPEN before, or the commit has locked its
driver out. -/
theorem Backed.opened (backed : Backed after now) {case : EscalationCase}
    (member : case ∈ (now.db.after after.writes).cases) (isOpen : case.status = .open) :
    (∃ old ∈ now.db.cases, old.id = case.id ∧ old.driverId = case.driverId ∧
      old.status = .open) ∨
    ∃ loaded current first rest, loaded.id = case.driverId ∧
      after.writes = first ++ .updateDriver loaded current :: rest := by
  cases backed.deed with
  | calm all =>
      refine .inl (open_after (fun write isIn row same => ?_) member isOpen)
      have calm := all write isIn
      rw [same] at calm
      exact calm
  | locksOut companyId triggerCheckId recipients driver row load lock entry alert new createdAt ids
      first staged locks other whole =>
      have writes := locks.writes backed whole
      have own := locks.own
      rw [writes, Db.after_append, Db.after_cons, Db.after_cons] at member
      obtain ⟨old, oldIn, oldId, oldDriver, oldOpen⟩ :=
        open_after (fun write isIn => (tellWrites_elsewhere write isIn).not_insertCase) member
          isOpen
      rcases Table.mem_insert.mp oldIn with before | ⟨rfl, _⟩
      · obtain ⟨oldest, oldestIn, oldestId, oldestDriver, oldestOpen⟩ :=
          open_after (fun write isIn => (other write isIn).not_insertCase) before oldOpen
        exact .inl ⟨oldest, oldestIn, oldestId.trans oldId, oldestDriver.trans oldDriver,
          oldestOpen⟩
      · exact .inr ⟨driver, _, first, _, own.symm.trans oldDriver, writes⟩
  | lifts resolvedById driver load seen first resolving lifts other whole =>
      exact .inl (open_after (lifts.opensNothing other whole) member isOpen)
  | sweeps instant today claim claims all =>
      exact .inl (open_after (sweep_opensNothing all) member isOpen)

theorem Backed.committed (backed : Backed after now) :
    Consistent (now.committed after.connection) ∧
      Evolves now (now.committed after.connection) := by
  rw [committed_eq]
  refine ⟨backed.consistent.after backed.ready backed.sane, le_refl _,
    persists_after backed.ready, ?_⟩
  intro case member isOpen
  rcases backed.opened member isOpen with old | ⟨loaded, current, first, rest, own, writes⟩
  · exact .inl old
  · refine .inr fun row rowIn isRow => ?_
    have replays := backed.ready
    rw [writes] at replays ⊢
    exact bumped_after replays rowIn (isRow.trans own.symm)

/-- **The discipline of locks and cases.** Every run follows it. -/
theorem lockoutDiscipline (sha256 : Str → Str) (validateKennzeichen : Str → Option Str)
    (policy : Policy World Memory Connection Statement Env Request) :
    Discipline (system sha256 validateKennzeichen) policy readCommitted Consistent Evolves where
  refl := Evolves.refl
  trans := Evolves.trans
  advance := by
    intro world env consistent possible
    have ticks : world.clock < env.now := by simpa [system, serving, postgres] using possible
    exact ⟨consistent.tick ticks, .tick world ticks⟩
  commit := fun commits => (Backed.of_commits (fun _ inv => inv) commits).committed

end Fristenwaechter
