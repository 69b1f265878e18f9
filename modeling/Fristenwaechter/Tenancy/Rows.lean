import Fristenwaechter.Library.Restriction
import Fristenwaechter.Tenancy.Ownership

/-!
Owns the rows of one company: the part of the database that belongs to it, the writes
that stay inside that part, and what such a write does to the parts of the others.
-/

namespace Fristenwaechter

open Library (Journal Table)

/-- The rows of a company. -/
def Db.of (db : Db) (companyId : Uuid) : Db where
  companies := db.companies.restrict fun row => row.id = companyId
  accountUsers := db.accountUsers.restrict fun row => row.companyId = companyId
  userSessions := db.userSessions.restrict fun row => row.companyId = companyId
  invitations := db.invitations.restrict fun row => row.companyId = companyId
  drivers := db.drivers.restrict fun row => row.companyId = companyId
  vehicles := db.vehicles.restrict fun row => row.companyId = companyId
  deadlines := db.deadlines.restrict fun row => row.companyId = companyId
  cases := db.cases.restrict fun row => row.companyId = companyId
  alerts := db.alerts.restrict fun row => row.companyId = companyId
  outbox := db.outbox.restrict fun row => row.companyId = companyId
  checkLog := db.checkLog.restrict fun row => row.companyId = companyId

/-- The row under an id belongs to the company. -/
def Db.Holds (db : Db) (companyId : Uuid) : Ref → Prop
  | .driver id => ∃ row ∈ db.drivers, row.id = id ∧ row.companyId = companyId
  | .deadline id => ∃ row ∈ db.deadlines, row.id = id ∧ row.companyId = companyId
  | .case id => ∃ row ∈ db.cases, row.id = id ∧ row.companyId = companyId
  | _ => False

theorem Db.Holds.later {before after : Db} {companyId : Uuid} {ref : Ref}
    (persists : Persists before after) (holds : before.Holds companyId ref) :
    after.Holds companyId ref := by
  cases ref with
  | driver id =>
      obtain ⟨row, member, own, company⟩ := holds
      obtain ⟨later, laterIn, follows⟩ := persists.drivers row member
      exact ⟨later, laterIn, follows.id.trans own, follows.companyId.trans company⟩
  | deadline id =>
      obtain ⟨row, member, own, company⟩ := holds
      obtain ⟨later, laterIn, follows⟩ := persists.deadlines row member
      exact ⟨later, laterIn, follows.id.trans own, follows.companyId.trans company⟩
  | case id =>
      obtain ⟨row, member, own, company⟩ := holds
      obtain ⟨later, laterIn, follows⟩ := persists.cases row member
      exact ⟨later, laterIn, follows.id.trans own, follows.companyId.trans company⟩
  | _ => exact holds

/-- The write inserts a row of the company, or updates one; a case is one of its drivers. -/
def Write.Owned (companyId : Uuid) (db : Db) : Write → Prop
  | .insertDriver row => row.companyId = companyId
  | .updateDriver loaded _ => db.Holds companyId (.driver loaded.id)
  | .insertVehicle row => row.companyId = companyId
  | .insertDeadline row => row.companyId = companyId
  | .updateDeadline loaded _ => db.Holds companyId (.deadline loaded.id)
  | .insertCase row => row.companyId = companyId ∧ db.Holds companyId (.driver row.driverId)
  | .updateCase change => db.Holds companyId (.case change.loaded.id)
  | .insertAlert row => row.companyId = companyId
  | .insertOutbox row => row.companyId = companyId
  | .insertLog row => row.companyId = companyId
  | _ => False

theorem Write.Owned.later {before after : Db} {companyId : Uuid} {write : Write}
    (persists : Persists before after) (owned : write.Owned companyId before) :
    write.Owned companyId after := by
  cases write with
  | updateDriver loaded current =>
      have holds : before.Holds companyId (.driver loaded.id) := owned
      exact holds.later persists
  | updateDeadline loaded current =>
      have holds : before.Holds companyId (.deadline loaded.id) := owned
      exact holds.later persists
  | insertCase row =>
      have holds : row.companyId = companyId ∧ before.Holds companyId (.driver row.driverId) :=
        owned
      exact ⟨holds.1, holds.2.later persists⟩
  | updateCase change =>
      have holds : before.Holds companyId (.case change.loaded.id) := owned
      exact holds.later persists
  | _ => exact owned

/-- The row that an INSERT brings, with its company. -/
def Write.brings : Write → Option (Ref × Uuid)
  | .insertDriver row => some (.driver row.id, row.companyId)
  | .insertDeadline row => some (.deadline row.id, row.companyId)
  | .insertCase row => some (.case row.id, row.companyId)
  | _ => none

section Parts

variable {db : Db} {write : Write} {companyId other : Uuid}

theorem insert_absent {Row : Type} [Library.Keyed Row Uuid] {table : Table Row} {row : Row}
    (valid : requireNew table row = .ok ()) : table.find (Library.Keyed.key row) = none := by
  simpa [requireNew] using valid

/-- The key of an inserted row is new. -/
def Write.IsNew (db : Db) : Write → Prop
  | .insertDriver row => db.drivers.find row.id = none
  | .insertVehicle row => db.vehicles.find row.id = none
  | .insertDeadline row => db.deadlines.find row.id = none
  | .insertCase row => db.cases.find row.id = none
  | .insertAlert row => db.alerts.find row.id = none
  | .insertOutbox row => db.outbox.find row.id = none
  | .insertLog row => db.checkLog.find row.id = none
  | _ => True

theorem Write.isNew (valid : write.check db = .ok ()) : write.IsNew db := by
  cases write with
  | insertDeadline row => exact insert_absent valid
  | insertDriver row =>
      simp only [Write.check, require_then_eq_ok] at valid
      exact insert_absent valid.2
  | insertVehicle row =>
      simp only [Write.check, require_then_eq_ok] at valid
      exact insert_absent valid.2
  | insertAlert row =>
      simp only [Write.check, require_then_eq_ok] at valid
      exact insert_absent valid.2
  | insertCase row =>
      simp only [Write.check, requireNew, require_then_eq_ok, Option.isNone_iff_eq_none] at valid
      exact valid.1
  | insertOutbox row =>
      simp only [Write.check, requireNew, require_then_eq_ok, Option.isNone_iff_eq_none] at valid
      exact valid.2.1
  | insertLog row =>
      simp only [Write.check, requireNew, require_then_eq_ok, Option.isNone_iff_eq_none] at valid
      exact valid.2.1
  | _ => trivial

theorem Db.Holds.origin {ref : Ref} (holds : (write.apply db).Holds companyId ref) :
    db.Holds companyId ref ∨ write.brings = some (ref, companyId) := by
  have unchanged : (write.apply db).drivers = db.drivers →
      (write.apply db).deadlines = db.deadlines → (write.apply db).cases = db.cases →
        db.Holds companyId ref := by
    intro drivers deadlines cases
    cases ref <;>
      first | exact holds.elim | simpa only [Db.Holds, drivers, deadlines, cases] using holds
  cases write with
  | insertDriver row =>
      cases ref with
      | driver id =>
          obtain ⟨found, member, own, company⟩ := holds
          rcases Table.mem_insert.mp member with old | ⟨rfl, _⟩
          · exact .inl ⟨found, old, own, company⟩
          · exact .inr (by rw [Write.brings, own, company])
      | _ => exact .inl holds
  | updateDriver loaded current =>
      cases ref with
      | driver id =>
          obtain ⟨found, member, own, company⟩ := holds
          obtain ⟨old, oldIn, rfl⟩ := (Table.mem_update (by simp)).mp member
          refine .inl ⟨old, oldIn, ?_, ?_⟩
          · split at own <;> exact own
          · split at company <;> exact company
      | _ => exact .inl holds
  | insertDeadline row =>
      cases ref with
      | deadline id =>
          obtain ⟨found, member, own, company⟩ := holds
          rcases Table.mem_insert.mp member with old | ⟨rfl, _⟩
          · exact .inl ⟨found, old, own, company⟩
          · exact .inr (by rw [Write.brings, own, company])
      | _ => exact .inl holds
  | updateDeadline loaded current =>
      cases ref with
      | deadline id =>
          obtain ⟨found, member, own, company⟩ := holds
          obtain ⟨old, oldIn, rfl⟩ := (Table.mem_update (by simp)).mp member
          refine .inl ⟨old, oldIn, ?_, ?_⟩
          · split at own <;> exact own
          · split at company <;> exact company
      | _ => exact .inl holds
  | insertCase row =>
      cases ref with
      | case id =>
          obtain ⟨found, member, own, company⟩ := holds
          rcases Table.mem_insert.mp member with old | ⟨rfl, _⟩
          · exact .inl ⟨found, old, own, company⟩
          · exact .inr (by rw [Write.brings, own, company])
      | _ => exact .inl holds
  | updateCase change =>
      cases ref with
      | case id =>
          obtain ⟨found, member, own, company⟩ := holds
          obtain ⟨old, oldIn, rfl⟩ := (Table.mem_update (by simp)).mp member
          refine .inl ⟨old, oldIn, ?_, ?_⟩
          · split at own <;> exact own
          · split at company <;> exact company
      | _ => exact .inl holds
  | _ => exact .inl (unchanged rfl rfl rfl)

theorem Db.Holds.brought {ref : Ref} (valid : write.check db = .ok ())
    (brings : write.brings = some (ref, companyId)) : (write.apply db).Holds companyId ref := by
  have new := Write.isNew valid
  cases write with
  | insertDriver row =>
      cases brings
      exact ⟨row, Table.mem_insert.mpr (.inr ⟨rfl, new⟩), rfl, rfl⟩
  | insertDeadline row =>
      cases brings
      exact ⟨row, Table.mem_insert.mpr (.inr ⟨rfl, new⟩), rfl, rfl⟩
  | insertCase row =>
      cases brings
      exact ⟨row, Table.mem_insert.mpr (.inr ⟨rfl, new⟩), rfl, rfl⟩
  | _ => cases brings

/-- What is held after some writes was held before them, or one of them has brought it. -/
theorem Db.Holds.origins {writes : List Write} {ref : Ref}
    (holds : (db.after writes).Holds companyId ref) :
    db.Holds companyId ref ∨ ∃ write ∈ writes, write.brings = some (ref, companyId) := by
  induction writes generalizing db with
  | nil => exact .inl holds
  | cons write rest inductionHypothesis =>
      rcases inductionHypothesis holds with first | ⟨other, member, brings⟩
      · exact first.origin.imp_right fun brings => ⟨write, List.mem_cons_self, brings⟩
      · exact .inr ⟨other, List.mem_cons_of_mem _ member, brings⟩

theorem Db.Holds.replayed {writes : List Write} {ref : Ref}
    (replays : Journal.Replays writes db) (member : write ∈ writes)
    (brings : write.brings = some (ref, companyId)) : (db.after writes).Holds companyId ref := by
  induction writes generalizing db with
  | nil => cases member
  | cons first rest inductionHypothesis =>
      rcases List.mem_cons.mp member with rfl | later
      · have persists : Persists (write.apply db) ((write.apply db).after rest) :=
          persists_after replays.2
        exact (Db.Holds.brought replays.1 brings).later persists
      · exact inductionHypothesis replays.2 later

/-! ### Tables -/

section Tables

variable {Row : Type} [Library.Keyed Row Uuid] {table : Table Row} {row : Row} {id : Uuid}

theorem part_inserted (company : Row → Uuid) (own : company row = companyId)
    (new : table.find (Library.Keyed.key row) = none) :
    (table.insert row).restrict (fun row => company row = companyId) =
      (table.restrict fun row => company row = companyId).insert row :=
  Table.restrict_insert (decide_eq_true own) fun found member same =>
    absurd same (Table.find_eq_none.mp new found member)

theorem part_inserted_elsewhere (company : Row → Uuid) (own : company row = companyId)
    (foreign : other ≠ companyId) :
    (table.insert row).restrict (fun row => company row = other) =
      table.restrict fun row => company row = other :=
  Table.restrict_insert_hidden (decide_eq_false (own ▸ foreign.symm))

variable (company : Row → Uuid) (change : Row → Row)

theorem part_updated (keeps : ∀ row, Library.Keyed.key (change row) = Library.Keyed.key row)
    (same : ∀ row, company (change row) = company row) :
    (table.update id change).restrict (fun row => company row = companyId) =
      (table.restrict fun row => company row = companyId).update id change :=
  Table.restrict_update keeps fun row => by rw [same]

/-- An UPDATE of a row of a company is hidden from the others. -/
theorem part_updated_elsewhere
    (keeps : ∀ row, Library.Keyed.key (change row) = Library.Keyed.key row)
    (same : ∀ row, company (change row) = company row) (foreign : other ≠ companyId)
    (held : ∃ row ∈ table, Library.Keyed.key row = id ∧ company row = companyId) :
    (table.update id change).restrict (fun row => company row = other) =
      table.restrict fun row => company row = other := by
  refine Table.restrict_update_hidden keeps (fun row => by rw [same]) fun row member sameId => ?_
  obtain ⟨own, ownIn, ownId, isOwn⟩ := held
  have isRow : row = own := Table.eq_of_key member ownIn (sameId.trans ownId.symm)
  rw [isRow, isOwn]
  exact decide_eq_false foreign.symm

end Tables

theorem Write.Owned.here (valid : write.check db = .ok ()) (owned : write.Owned companyId db) :
    (write.apply db).of companyId = write.apply (db.of companyId) := by
  have new := Write.isNew valid
  cases write with
  | insertDriver row =>
      exact congrArg (fun table => { db.of companyId with drivers := table })
        (part_inserted Driver.companyId owned new)
  | insertVehicle row =>
      exact congrArg (fun table => { db.of companyId with vehicles := table })
        (part_inserted Vehicle.companyId owned new)
  | insertDeadline row =>
      exact congrArg (fun table => { db.of companyId with deadlines := table })
        (part_inserted Deadline.companyId owned new)
  | insertCase row =>
      exact congrArg (fun table => { db.of companyId with cases := table })
        (part_inserted EscalationCase.companyId owned.1 new)
  | insertAlert row =>
      exact congrArg (fun table => { db.of companyId with alerts := table })
        (part_inserted SystemAlert.companyId owned new)
  | insertOutbox row =>
      exact congrArg (fun table => { db.of companyId with outbox := table })
        (part_inserted OutboxMessage.companyId owned new)
  | insertLog row =>
      exact congrArg (fun table => { db.of companyId with checkLog := table })
        (part_inserted ComplianceCheckLog.companyId owned new)
  | updateDriver loaded current =>
      exact congrArg (fun table => { db.of companyId with drivers := table })
        (part_updated Driver.companyId (Driver.changed loaded current) (by simp)
          fun row => rfl)
  | updateDeadline loaded current =>
      exact congrArg (fun table => { db.of companyId with deadlines := table })
        (part_updated Deadline.companyId (Deadline.changed loaded current) (by simp)
          fun row => rfl)
  | updateCase change =>
      exact congrArg (fun table => { db.of companyId with cases := table })
        (part_updated EscalationCase.companyId
          (EscalationCase.changed change.loaded change.current) (by simp) fun row => rfl)
  | _ => exact absurd owned id

theorem Write.Owned.elsewhere (foreign : other ≠ companyId) (owned : write.Owned companyId db) :
    (write.apply db).of other = db.of other := by
  cases write with
  | insertDriver row =>
      exact congrArg (fun table => { db.of other with drivers := table })
        (part_inserted_elsewhere Driver.companyId owned foreign)
  | insertVehicle row =>
      exact congrArg (fun table => { db.of other with vehicles := table })
        (part_inserted_elsewhere Vehicle.companyId owned foreign)
  | insertDeadline row =>
      exact congrArg (fun table => { db.of other with deadlines := table })
        (part_inserted_elsewhere Deadline.companyId owned foreign)
  | insertCase row =>
      exact congrArg (fun table => { db.of other with cases := table })
        (part_inserted_elsewhere EscalationCase.companyId owned.1 foreign)
  | insertAlert row =>
      exact congrArg (fun table => { db.of other with alerts := table })
        (part_inserted_elsewhere SystemAlert.companyId owned foreign)
  | insertOutbox row =>
      exact congrArg (fun table => { db.of other with outbox := table })
        (part_inserted_elsewhere OutboxMessage.companyId owned foreign)
  | insertLog row =>
      exact congrArg (fun table => { db.of other with checkLog := table })
        (part_inserted_elsewhere ComplianceCheckLog.companyId owned foreign)
  | updateDriver loaded current =>
      exact congrArg (fun table => { db.of other with drivers := table })
        (part_updated_elsewhere Driver.companyId (Driver.changed loaded current) (by simp)
          (fun row => rfl) foreign owned)
  | updateDeadline loaded current =>
      exact congrArg (fun table => { db.of other with deadlines := table })
        (part_updated_elsewhere Deadline.companyId (Deadline.changed loaded current) (by simp)
          (fun row => rfl) foreign owned)
  | updateCase change =>
      exact congrArg (fun table => { db.of other with cases := table })
        (part_updated_elsewhere EscalationCase.companyId
          (EscalationCase.changed change.loaded change.current) (by simp) (fun row => rfl) foreign
          owned)
  | _ => exact absurd owned id

end Parts

end Fristenwaechter
