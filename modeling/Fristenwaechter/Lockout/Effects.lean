import Fristenwaechter.Lockout.Discipline

/-!
Owns the tables after a backed commit, deed by deed: a lockout rewrites its driver and
appends its case, a lift rewrites its driver and closes the case it has read, and
nothing else touches a lock or a case.
-/

namespace Fristenwaechter

open Library (Journal Table)
open Library.Table (Carries)

variable {now : World} {after : Session}

/-! ### Calm commits -/

/-- The lock columns of a driver are as they were. -/
structure Driver.SameLock (row later : Driver) : Prop where
  id : later.id = row.id
  isAuthorizedToDrive : later.isAuthorizedToDrive = row.isAuthorizedToDrive

theorem Driver.SameLock.refl (row : Driver) : row.SameLock row :=
  ⟨rfl, rfl⟩

theorem Driver.SameLock.trans {first second third : Driver} (one : first.SameLock second)
    (two : second.SameLock third) : first.SameLock third :=
  ⟨two.id.trans one.id, two.isAuthorizedToDrive.trans one.isAuthorizedToDrive⟩

theorem Write.Calm.cases {write : Write} (calm : write.Calm) (db : Db) :
    (write.apply db).cases = db.cases := by
  cases write <;> first | rfl | exact calm.elim

theorem Write.Calm.carries {write : Write} (calm : write.Calm) (db : Db) :
    Carries Driver.SameLock db.drivers (write.apply db).drivers := by
  have unchanged := Carries.refl Driver.SameLock.refl db.drivers
  cases write with
  | insertDriver row => exact Carries.insert Driver.SameLock.refl _ row
  | updateDriver loaded current =>
      refine Carries.update Driver.SameLock.refl (by simp) fun row member same => ⟨rfl, ?_⟩
      simp only [Driver.changed, column, if_pos calm.1]
  | _ => exact unchanged

theorem calm_after {writes : List Write} (calm : ∀ write ∈ writes, write.Calm) (db : Db) :
    (db.after writes).cases = db.cases ∧
      Carries Driver.SameLock db.drivers (db.after writes).drivers := by
  induction writes generalizing db with
  | nil => exact ⟨rfl, Carries.refl Driver.SameLock.refl _⟩
  | cons write rest inductionHypothesis =>
      obtain ⟨cases, drivers⟩ :=
        inductionHypothesis (fun other member => calm other (by simp [member])) (write.apply db)
      have own := calm write (by simp)
      exact ⟨cases.trans (own.cases db),
        (own.carries db).trans (fun earlier later => earlier.trans later) drivers⟩

theorem elsewhere_after {writes : List Write} (elsewhere : ∀ write ∈ writes, write.Elsewhere)
    (db : Db) : (db.after writes).drivers = db.drivers ∧ (db.after writes).cases = db.cases :=
  ⟨db.after_drivers fun write member => (elsewhere write member).1,
    db.after_cases fun write member => (elsewhere write member).2⟩

/-! ### Lockouts -/

section LocksOut

variable {companyId triggerCheckId : Uuid} {recipients : List Recipient} {driver row : Driver}
variable {load lock alert entry : Sent} {case : EscalationCase} {createdAt : Instant}
variable {ids : List Uuid} {first staged : List Write}

theorem Driver.changed_locked {driver : Driver} {instant : Instant} :
    (Driver.changed driver (driver.lockedAtInstant instant) driver).isAuthorizedToDrive =
      false := by
  simp only [Driver.changed, Driver.lockedAtInstant, column]
  cases driver.isAuthorizedToDrive <;> rfl

theorem LocksOut.tables (backed : Backed after now)
    (locks : LocksOut companyId triggerCheckId recipients after.trace driver row load lock entry
      alert case createdAt ids staged) (other : ∀ write ∈ first, write.Elsewhere)
    (whole : after.writes = first ++ staged) :
    now.db.drivers.find driver.id = some driver ∧
      (now.db.after after.writes).drivers = now.db.drivers.update driver.id
        (Driver.changed driver (driver.lockedAtInstant entry.env.now)) ∧
      (now.db.after after.writes).cases = now.db.cases.insert case ∧
      now.db.cases.find case.id = none := by
  have writes := locks.writes backed whole
  have ready := backed.ready
  rw [writes] at ready ⊢
  obtain ⟨_, valid, validCase, _⟩ := Journal.replays_append.mp ready
  change (Write.updateDriver driver _).check (now.db.after first) = .ok () at valid
  change (Write.insertCase case).check ((Write.updateDriver driver _).apply
    (now.db.after first)) = .ok () at validCase
  obtain ⟨firstDrivers, firstCases⟩ := elsewhere_after other now.db
  obtain ⟨stored, found, version⟩ := updateDriver_valid valid
  rw [firstDrivers] at found
  have same := backed.copied (locks.order.subset (List.mem_cons_self)) locks.copied found version
  refine ⟨same ▸ found, ?_, ?_, ?_⟩
  · rw [Db.after_append, Db.after_cons, Db.after_cons, (elsewhere_after tellWrites_elsewhere _).1]
    change (now.db.after first).drivers.update driver.id _ = _
    rw [firstDrivers]
  · rw [Db.after_append, Db.after_cons, Db.after_cons, (elsewhere_after tellWrites_elsewhere _).2]
    change (now.db.after first).cases.insert case = _
    rw [firstCases]
  · have fresh := (insertCase_valid validCase).1
    change (now.db.after first).cases.find case.id = none at fresh
    rwa [firstCases] at fresh

end LocksOut

/-! ### Lifts -/

section LiftsLock

variable {resolvedById : Option Uuid} {driver : Driver} {load seen : Sent}
variable {first resolving : List Write}

theorem update_unlocked_cases (driver : Driver) :
    driver.unlocked = driver ∧ driver.update driver.unlocked = [] ∨
      driver.update driver.unlocked = [.updateDriver driver driver.unlocked] := by
  unfold Driver.update
  split
  · exact .inl ⟨‹_›, rfl⟩
  · exact .inr rfl

theorem resolving_drivers {found : Option EscalationCase}
    (resolves : Resolves resolvedById found resolving) (db : Db) :
    (db.after resolving).drivers = db.drivers := by
  cases resolves <;> rfl

theorem LiftsLock.found (backed : Backed after now)
    (lifts : LiftsLock resolvedById after.trace driver load seen resolving)
    (other : ∀ write ∈ first, write.Elsewhere)
    (whole : after.writes = first ++ (driver.update driver.unlocked ++ resolving))
    (update : driver.update driver.unlocked = [.updateDriver driver driver.unlocked]) :
    now.db.drivers.find driver.id = some driver := by
  have ready := backed.ready
  rw [whole, update] at ready
  obtain ⟨_, valid, _⟩ := Journal.replays_append.mp ready
  change (Write.updateDriver driver _).check (now.db.after first) = .ok () at valid
  obtain ⟨stored, found, version⟩ := updateDriver_valid valid
  rw [(elsewhere_after other now.db).1] at found
  have same := backed.copied (lifts.order.subset (List.mem_cons_self)) lifts.copied found version
  exact same ▸ found

theorem LiftsLock.drivers (backed : Backed after now)
    (lifts : LiftsLock resolvedById after.trace driver load seen resolving)
    (other : ∀ write ∈ first, write.Elsewhere)
    (whole : after.writes = first ++ (driver.update driver.unlocked ++ resolving)) :
    driver.unlocked = driver ∧ (now.db.after after.writes).drivers = now.db.drivers ∨
      now.db.drivers.find driver.id = some driver ∧
        (now.db.after after.writes).drivers =
          now.db.drivers.update driver.id (Driver.changed driver driver.unlocked) := by
  have firstDrivers := (elsewhere_after other now.db).1
  rcases update_unlocked_cases driver with ⟨clear, none⟩ | update
  · refine .inl ⟨clear, ?_⟩
    rw [whole, none, List.nil_append, Db.after_append, resolving_drivers lifts.resolves,
      firstDrivers]
  · refine .inr ⟨lifts.found backed other whole update, ?_⟩
    rw [whole, update, Db.after_append, List.singleton_append, Db.after_cons,
      resolving_drivers lifts.resolves]
    change (now.db.after first).drivers.update driver.id _ = _
    rw [firstDrivers]

theorem LiftsLock.cases (db : Db)
    (lifts : LiftsLock resolvedById after.trace driver load seen resolving)
    (other : ∀ write ∈ first, write.Elsewhere)
    (whole : after.writes = first ++ (driver.update driver.unlocked ++ resolving)) :
    seen.openCase driver.id = none ∧ (db.after after.writes).cases = db.cases ∨
      ∃ case instant, seen.openCase driver.id = some case ∧
        .updateCase (case.resolved instant resolvedById) ∈ after.writes ∧
        (db.after after.writes).cases = db.cases.update case.id
          (EscalationCase.changed case (case.resolved instant resolvedById).current) := by
  have firstCases := (elsewhere_after other db).2
  have updateCases : ∀ db : Db, (db.after (driver.update driver.unlocked)).cases = db.cases := by
    intro db
    unfold Driver.update
    split <;> rfl
  have resolves := lifts.resolves
  generalize seen.openCase driver.id = found at resolves
  cases resolves with
  | nothing =>
      refine .inl ⟨rfl, ?_⟩
      rw [whole, List.append_nil, Db.after_append, updateCases, firstCases]
  | resolved case instant =>
      refine .inr ⟨case, instant, rfl, by simp [whole], ?_⟩
      rw [whole, Db.after_append, Db.after_append, Db.after_cons, Db.after_nil]
      change ((db.after first).after _).cases.update case.id _ = _
      rw [updateCases, firstCases]
      rfl

theorem openCase_spec {entry : Sent} {driverId : Uuid} {case : EscalationCase}
    (unwritten : entry.db.cases = entry.world.db.cases)
    (read : entry.openCase driverId = some case) :
    case ∈ entry.world.db.cases ∧ case.driverId = driverId ∧ case.status = .open := by
  have member := List.mem_of_find?_eq_some read
  have holds := List.find?_some read
  simp only [Bool.and_eq_true, decide_eq_true_eq] at holds
  rw [unwritten] at member
  exact ⟨member, holds.1.2, holds.2⟩

/-- A lift that finds its copy unchanged has read every OPEN case of its driver. -/
theorem LiftsLock.reads (backed : Backed after now)
    (lifts : LiftsLock resolvedById after.trace driver load seen resolving)
    (found : now.db.drivers.find driver.id = some driver) {case : EscalationCase}
    (member : case ∈ now.db.cases) (own : case.driverId = driver.id)
    (isOpen : case.status = .open) :
    ∃ read, seen.openCase driver.id = some read ∧ read.id = case.id := by
  have loadIn := lifts.order.subset (List.mem_cons_self)
  have seenIn := lifts.order.subset (List.mem_cons_of_mem _ (List.mem_cons_self))
  obtain ⟨consistent, _, evolves⟩ := backed.seen seen seenIn
  obtain ⟨middle, middleIn, follows⟩ :=
    (backed.pair lifts.order).persists.drivers driver (Table.mem_of_find lifts.copied.committed)
  have stable : ∀ later ∈ now.db.drivers, later.id = driver.id → later = driver := by
    intro later laterIn same
    exact Table.eq_of_key laterIn (Table.mem_of_find found) same
  rcases evolves.bumped case member isOpen with ⟨old, oldIn, oldId, oldDriver, oldOpen⟩ | bumped
  · obtain ⟨owner, ownerIn, isOwner, company⟩ := consistent.owned old oldIn
    have isMiddle : owner = middle := by
      refine Table.eq_of_key ownerIn middleIn ?_
      simp only [Driver.key_eq]
      rw [isOwner, oldDriver, own, follows.id]
    have visible : seen.connection.sees old.companyId = true := by
      rw [← company, isMiddle, follows.companyId]
      exact lifts.visible
    cases read : seen.openCase driver.id with
    | none =>
        have absent := List.find?_eq_none.mp read old (by rw [lifts.unwritten]; exact oldIn)
        simp [visible, oldDriver, own, oldOpen] at absent
    | some other =>
        obtain ⟨otherIn, otherDriver, otherOpen⟩ := openCase_spec lifts.unwritten read
        have same := consistent.unique other otherIn old oldIn
          (by rw [otherDriver, oldDriver, own]) otherOpen oldOpen
        exact ⟨other, rfl, by rw [same, oldId]⟩
  · obtain ⟨later, laterIn, laterId, version⟩ := bumped middle middleIn (follows.id.trans own.symm)
    have isDriver := stable later laterIn (laterId.trans follows.id)
    rw [isDriver] at version
    exact absurd follows.version (Nat.not_le.mpr version)

end LiftsLock

/-! ### Sweeps -/

theorem sweep_drivers {instant : Instant} {today : Date} {cases : List EscalationCase}
    {writes : List Write} (all : ∀ write ∈ writes, SweepWrite instant today cases write) (db : Db) :
    (db.after writes).drivers = db.drivers := by
  refine db.after_drivers fun write member => ?_
  cases all write member <;> simp [Write.table]

end Fristenwaechter
