import Fristenwaechter.Views
import Fristenwaechter.Library.Discipline

/-!
Owns what every commit keeps, whatever the program: no driver, case or deadline is
deleted, their identities and dates are fixed, a driver row changes only with its
version, a closed case is not reopened, and vehicles, evidence and alerts are only
appended.
-/

namespace Fristenwaechter

open Library (Table Journal)
open Library.Table (Carries)

/-- A later state of a driver row; without a new version it is the same row. -/
structure Driver.Later (row later : Driver) : Prop where
  id : later.id = row.id
  companyId : later.companyId = row.companyId
  version : row.versionId ≤ later.versionId
  same : later.versionId = row.versionId → later = row

structure EscalationCase.Later (row later : EscalationCase) : Prop where
  id : later.id = row.id
  companyId : later.companyId = row.companyId
  driverId : later.driverId = row.driverId
  deadlineAt : later.deadlineAt = row.deadlineAt
  closed : later.status = .open → row.status = .open

structure Deadline.Later (row later : Deadline) : Prop where
  id : later.id = row.id
  companyId : later.companyId = row.companyId
  kind : later.kind = row.kind
  subject : later.subject = row.subject
  dueOn : later.dueOn = row.dueOn

theorem Driver.Later.refl (row : Driver) : row.Later row :=
  ⟨rfl, rfl, le_refl _, fun _ => rfl⟩

theorem Driver.Later.trans {first second third : Driver} (one : first.Later second)
    (two : second.Later third) : first.Later third := by
  refine ⟨two.id.trans one.id, two.companyId.trans one.companyId, one.version.trans two.version,
    fun unchanged => ?_⟩
  have lower := one.version
  have upper := two.version
  rw [two.same (by omega), one.same (by omega)]

theorem EscalationCase.Later.refl (row : EscalationCase) : row.Later row :=
  ⟨rfl, rfl, rfl, rfl, fun isOpen => isOpen⟩

theorem EscalationCase.Later.trans {first second third : EscalationCase}
    (one : first.Later second) (two : second.Later third) : first.Later third :=
  ⟨two.id.trans one.id, two.companyId.trans one.companyId, two.driverId.trans one.driverId,
    two.deadlineAt.trans one.deadlineAt, fun isOpen => one.closed (two.closed isOpen)⟩

theorem Deadline.Later.refl (row : Deadline) : row.Later row :=
  ⟨rfl, rfl, rfl, rfl, rfl⟩

theorem Deadline.Later.trans {first second third : Deadline} (one : first.Later second)
    (two : second.Later third) : first.Later third :=
  ⟨two.id.trans one.id, two.companyId.trans one.companyId, two.kind.trans one.kind,
    two.subject.trans one.subject, two.dueOn.trans one.dueOn⟩

theorem updateCase_later (change : CaseChange) (row : EscalationCase) :
    row.Later (EscalationCase.changed change.loaded change.current row) := by
  refine ⟨rfl, rfl, rfl, rfl, fun isOpen => ?_⟩
  simp only [EscalationCase.changed, column] at isOpen
  split at isOpen
  · exact isOpen
  · rename_i differs
    exact absurd (isOpen.trans (change.stays isOpen).symm) differs

/-- What every commit keeps. -/
structure Persists (before after : Db) : Prop where
  drivers : Carries Driver.Later before.drivers after.drivers
  cases : Carries EscalationCase.Later before.cases after.cases
  deadlines : Carries Deadline.Later before.deadlines after.deadlines
  vehicles : before.vehicles.rows <+: after.vehicles.rows
  checkLog : before.checkLog.rows <+: after.checkLog.rows
  alerts : before.alerts.rows <+: after.alerts.rows

theorem Persists.refl (db : Db) : Persists db db :=
  ⟨Carries.refl Driver.Later.refl _, Carries.refl EscalationCase.Later.refl _,
    Carries.refl Deadline.Later.refl _, List.prefix_rfl, List.prefix_rfl, List.prefix_rfl⟩

theorem Persists.trans {first second third : Db} (one : Persists first second)
    (two : Persists second third) : Persists first third :=
  ⟨one.drivers.trans (fun earlier later => earlier.trans later) two.drivers,
    one.cases.trans (fun earlier later => earlier.trans later) two.cases,
    one.deadlines.trans (fun earlier later => earlier.trans later) two.deadlines,
    one.vehicles.trans two.vehicles, one.checkLog.trans two.checkLog, one.alerts.trans two.alerts⟩

theorem updateDriver_valid {loaded current : Driver} {db : Db}
    (valid : (Write.updateDriver loaded current).check db = .ok ()) :
    ∃ stored, db.drivers.find loaded.id = some stored ∧ stored.versionId = loaded.versionId := by
  simp only [Write.check, require_then_eq_ok, require_eq_ok, Option.any_eq_true,
    decide_eq_true_eq] at valid
  exact valid.2

theorem Write.persists {write : Write} {db : Db} (valid : write.check db = .ok ()) :
    Persists db (write.apply db) := by
  have unchanged := Persists.refl db
  cases write with
  | insertDriver row =>
      exact { unchanged with drivers := Carries.insert Driver.Later.refl _ row }
  | updateDriver loaded current =>
      obtain ⟨stored, found, version⟩ := updateDriver_valid valid
      refine { unchanged with drivers := Carries.update Driver.Later.refl (by simp) ?_ }
      intro row member same
      have isStored : row = stored := by
        have looked := Table.find_of_mem member
        rw [same, found] at looked
        exact (Option.some.inj looked).symm
      have bumped : (Driver.changed loaded current row).versionId = row.versionId + 1 := by
        rw [isStored, version]
        rfl
      exact ⟨rfl, rfl, by omega, fun unbumped => by omega⟩
  | insertCase row =>
      exact { unchanged with cases := Carries.insert EscalationCase.Later.refl _ row }
  | updateCase change =>
      refine { unchanged with cases := Carries.update EscalationCase.Later.refl (by simp) ?_ }
      exact fun row member same => updateCase_later change row
  | insertDeadline row =>
      exact { unchanged with deadlines := Carries.insert Deadline.Later.refl _ row }
  | updateDeadline loaded current =>
      refine { unchanged with deadlines := Carries.update Deadline.Later.refl (by simp) ?_ }
      exact fun row member same => ⟨rfl, rfl, rfl, rfl, rfl⟩
  | insertVehicle row => exact { unchanged with vehicles := Table.prefix_insert _ row }
  | insertLog row => exact { unchanged with checkLog := Table.prefix_insert _ row }
  | insertAlert row => exact { unchanged with alerts := Table.prefix_insert _ row }
  | _ => exact { unchanged with }

theorem persists_after {writes : List Write} {db : Db} (replays : Journal.Replays writes db) :
    Persists db (db.after writes) := by
  induction writes generalizing db with
  | nil => exact .refl db
  | cons write rest inductionHypothesis =>
      exact (Write.persists replays.1).trans (inductionHypothesis replays.2)

end Fristenwaechter
