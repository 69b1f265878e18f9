import Fristenwaechter.Lockout.Discipline

/-!
Owns references inside a tenant: which company a driver or a vehicle belongs to, when
a new row refers to a subject of its own company, and that such rows keep every
reference of the database inside its tenant.
-/

namespace Fristenwaechter

open Library (Journal Table)
open Library.Table (Carries)

def Db.Owns (db : Db) (companyId : Uuid) : Subject → Prop
  | .driver id => ∃ row ∈ db.drivers, row.id = id ∧ row.companyId = companyId
  | .vehicle id => ∃ row ∈ db.vehicles, row.id = id ∧ row.companyId = companyId

theorem Db.Owns.later {before after : Db} {companyId : Uuid} {subject : Subject}
    (persists : Persists before after) (owns : before.Owns companyId subject) :
    after.Owns companyId subject := by
  cases subject with
  | driver id =>
      obtain ⟨row, member, own, company⟩ := owns
      obtain ⟨later, laterIn, follows⟩ := persists.drivers row member
      exact ⟨later, laterIn, follows.id.trans own, follows.companyId.trans company⟩
  | vehicle id =>
      obtain ⟨row, member, own, company⟩ := owns
      exact ⟨row, persists.vehicles.subset member, own, company⟩

/-- A payload names its own company, or none. -/
def OutboxMessage.NamesOwnCompany (row : OutboxMessage) : Prop :=
  ∀ value, ("company_id".toList, value) ∈ row.payload → value = .str row.companyId.text

/-- An evidence row is about a subject of its own company. -/
def ComplianceCheckLog.Inside (db : Db) (row : ComplianceCheckLog) : Prop :=
  ∃ subject, row.about subject = true ∧ db.Owns row.companyId subject

/-- Every reference stays inside its tenant. -/
structure Referenced (db : Db) : Prop where
  deadlines : ∀ row ∈ db.deadlines, db.Owns row.companyId row.subject
  cases : ∀ row ∈ db.cases, db.Owns row.companyId (.driver row.driverId)
  alerts : ∀ row ∈ db.alerts, ∀ id, row.driverId = some id → db.Owns row.companyId (.driver id)
  outbox : ∀ row ∈ db.outbox, row.NamesOwnCompany
  checkLog : ∀ row ∈ db.checkLog, row.Inside db

/-- What a new row has to refer to. -/
def Write.Inside (db : Db) : Write → Prop
  | .insertDeadline row => db.Owns row.companyId row.subject
  | .insertCase row => db.Owns row.companyId (.driver row.driverId)
  | .insertAlert row => ∀ id, row.driverId = some id → db.Owns row.companyId (.driver id)
  | .insertOutbox row => row.NamesOwnCompany
  | .insertLog row => row.Inside db
  | _ => True

theorem Write.Inside.later {before after : Db} (persists : Persists before after) {write : Write}
    (inside : write.Inside before) : write.Inside after := by
  cases write with
  | insertDeadline row =>
      have owns : before.Owns row.companyId row.subject := inside
      exact owns.later persists
  | insertCase row =>
      have owns : before.Owns row.companyId (.driver row.driverId) := inside
      exact owns.later persists
  | insertAlert row => exact fun id own => Db.Owns.later persists (inside id own)
  | insertLog row =>
      obtain ⟨subject, about, owns⟩ := inside
      exact ⟨subject, about, owns.later persists⟩
  | _ => exact inside

theorem Referenced.carried {before after : Db} (referenced : Referenced before)
    (persists : Persists before after)
    (deadlines : ∀ row ∈ after.deadlines, row ∈ before.deadlines ∨
      ∃ old ∈ before.deadlines, row.companyId = old.companyId ∧ row.subject = old.subject)
    (cases : ∀ row ∈ after.cases, row ∈ before.cases ∨
      ∃ old ∈ before.cases, row.companyId = old.companyId ∧ row.driverId = old.driverId)
    (alerts : ∀ row ∈ after.alerts, row ∈ before.alerts)
    (outbox : ∀ row ∈ after.outbox, ∃ old ∈ before.outbox,
      row.companyId = old.companyId ∧ row.payload = old.payload)
    (checkLog : ∀ row ∈ after.checkLog, row ∈ before.checkLog) : Referenced after := by
  constructor
  · intro row member
    rcases deadlines row member with old | ⟨old, oldIn, company, subject⟩
    · exact (referenced.deadlines row old).later persists
    · rw [company, subject]
      exact (referenced.deadlines old oldIn).later persists
  · intro row member
    rcases cases row member with old | ⟨old, oldIn, company, driver⟩
    · exact (referenced.cases row old).later persists
    · rw [company, driver]
      exact (referenced.cases old oldIn).later persists
  · exact fun row member id own => (referenced.alerts row (alerts row member) id own).later persists
  · intro row member value named
    obtain ⟨old, oldIn, company, payload⟩ := outbox row member
    rw [company]
    exact referenced.outbox old oldIn value (payload ▸ named)
  · intro row member
    obtain ⟨subject, about, owns⟩ := referenced.checkLog row (checkLog row member)
    exact ⟨subject, about, owns.later persists⟩

theorem Referenced.write {write : Write} {db : Db} (referenced : Referenced db)
    (valid : write.check db = .ok ()) (inside : write.Inside db) : Referenced (write.apply db) := by
  have persists := Write.persists valid
  have same : ∀ row ∈ db.outbox, ∃ old ∈ db.outbox,
      row.companyId = old.companyId ∧ row.payload = old.payload :=
    fun row member => ⟨row, member, rfl, rfl⟩
  have unchanged : ∀ after : Db, Persists db after → after.deadlines = db.deadlines →
      after.cases = db.cases → after.alerts = db.alerts → after.outbox = db.outbox →
      after.checkLog = db.checkLog → Referenced after := by
    intro after later deadlines cases alerts outbox checkLog
    refine referenced.carried later ?_ ?_ ?_ ?_ ?_
    · exact fun row member => .inl (deadlines ▸ member)
    · exact fun row member => .inl (cases ▸ member)
    · exact fun row member => alerts ▸ member
    · exact fun row member => same row (outbox ▸ member)
    · exact fun row member => checkLog ▸ member
  cases write with
  | insertDeadline row =>
      have old :
          Referenced { (Write.insertDeadline row).apply db with deadlines := db.deadlines } :=
        unchanged _ { persists with deadlines := Carries.refl Deadline.Later.refl _ } rfl rfl rfl
          rfl rfl
      refine { old with deadlines := fun other member => ?_ }
      rcases Table.mem_insert.mp member with before | ⟨rfl, _⟩
      · exact old.deadlines other before
      · exact inside
  | updateDeadline loaded current =>
      refine referenced.carried persists ?_ (fun row member => .inl member)
        (fun row member => member) same (fun row member => member)
      intro row member
      obtain ⟨old, oldIn, rfl⟩ := (Table.mem_update (by simp)).mp member
      refine .inr ⟨old, oldIn, ?_, ?_⟩ <;> split <;> rfl
  | insertCase row =>
      have old : Referenced { (Write.insertCase row).apply db with cases := db.cases } :=
        unchanged _ { persists with cases := Carries.refl EscalationCase.Later.refl _ } rfl rfl rfl
          rfl rfl
      refine { old with cases := fun other member => ?_ }
      rcases Table.mem_insert.mp member with before | ⟨rfl, _⟩
      · exact old.cases other before
      · exact inside
  | updateCase change =>
      refine referenced.carried persists (fun row member => .inl member) ?_
        (fun row member => member) same (fun row member => member)
      intro row member
      obtain ⟨old, oldIn, rfl⟩ := (Table.mem_update (by simp)).mp member
      refine .inr ⟨old, oldIn, ?_, ?_⟩ <;> split <;> rfl
  | insertAlert row =>
      have old : Referenced { (Write.insertAlert row).apply db with alerts := db.alerts } :=
        unchanged _ { persists with alerts := List.prefix_rfl } rfl rfl rfl rfl rfl
      refine { old with alerts := fun other member => ?_ }
      rcases Table.mem_insert.mp member with before | ⟨rfl, _⟩
      · exact old.alerts other before
      · exact inside
  | insertOutbox row =>
      have old : Referenced { (Write.insertOutbox row).apply db with outbox := db.outbox } :=
        unchanged _ { persists with } rfl rfl rfl rfl rfl
      refine { old with outbox := fun other member => ?_ }
      rcases Table.mem_insert.mp member with before | ⟨rfl, _⟩
      · exact old.outbox other before
      · exact inside
  | updateOutbox loaded current =>
      refine referenced.carried persists (fun row member => .inl member)
        (fun row member => .inl member) (fun row member => member) ?_ (fun row member => member)
      intro row member
      obtain ⟨old, oldIn, rfl⟩ := (Table.mem_update (by simp)).mp member
      refine ⟨old, oldIn, ?_, ?_⟩ <;> split <;> rfl
  | deleteOutbox ids =>
      refine referenced.carried persists (fun row member => .inl member)
        (fun row member => .inl member) (fun row member => member) ?_ (fun row member => member)
      exact fun row member => same row (Table.mem_remove.mp member).1
  | insertLog row =>
      have old : Referenced { (Write.insertLog row).apply db with checkLog := db.checkLog } :=
        unchanged _ { persists with checkLog := List.prefix_rfl } rfl rfl rfl rfl rfl
      refine { old with checkLog := fun other member => ?_ }
      rcases Table.mem_insert.mp member with before | ⟨rfl, _⟩
      · exact old.checkLog other before
      · exact inside
  | _ => exact unchanged _ persists rfl rfl rfl rfl rfl

/-- Writes that refer to their own tenant keep every reference inside it; a row may
refer to one that an earlier write has inserted. -/
theorem Referenced.after {first rest : List Write} {db : Db} (referenced : Referenced db)
    (replays : Journal.Replays (first ++ rest) db)
    (insideFirst : ∀ write ∈ first, write.Inside db)
    (insideRest : ∀ write ∈ rest, write.Inside (db.after first)) :
    Referenced (db.after (first ++ rest)) := by
  have all : ∀ (writes : List Write) (db : Db), Referenced db → Journal.Replays writes db →
      (∀ write ∈ writes, write.Inside db) → Referenced (db.after writes) := by
    intro writes
    induction writes with
    | nil => exact fun db referenced _ _ => referenced
    | cons write rest inductionHypothesis =>
        intro db referenced replays inside
        have persists := Write.persists replays.1
        refine inductionHypothesis _ (referenced.write replays.1 (inside write (by simp))) replays.2
          fun other member => ?_
        exact (inside other (by simp [member])).later persists
  obtain ⟨one, two⟩ := Journal.replays_append.mp replays
  rw [Db.after_append]
  exact all rest _ (all first db referenced one insideFirst) two insideRest

end Fristenwaechter
