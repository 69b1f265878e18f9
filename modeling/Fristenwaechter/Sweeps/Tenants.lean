import Fristenwaechter.Sweeps.Effects
import Fristenwaechter.Sweeps.Escalations
import Fristenwaechter.Tenancy.Ownership

/-!
Owns what one tenant has to do with the others in a sweep: they share its transaction, so a
key of one of them that is too long undoes the sweep for all, and nothing else does.
-/

namespace Fristenwaechter

open Library (Engine Journal Table)

variable {db : Db} {moment : Moment} {request : Request} {companyId : Uuid}

/-! ### What is a company's own -/

/-- The two databases agree on what belongs to the company. -/
structure Db.Agrees (first second : Db) (companyId : Uuid) : Prop where
  cases : ∀ row, row.companyId = companyId → (row ∈ first.cases ↔ row ∈ second.cases)
  deadlines : ∀ row, row.companyId = companyId → (row ∈ first.deadlines ↔ row ∈ second.deadlines)
  drivers : ∀ row, row.companyId = companyId → (row ∈ first.drivers ↔ row ∈ second.drivers)
  vehicles : ∀ row, row.companyId = companyId → (row ∈ first.vehicles ↔ row ∈ second.vehicles)
  activeUsers : ∀ row, row.companyId = companyId → row.isActive = true →
    (row ∈ first.accountUsers ↔ row ∈ second.accountUsers)
  outbox : ∀ row, row.companyId = companyId → (row ∈ first.outbox ↔ row ∈ second.outbox)

/-- What a sweep looks up for the company is the company's own. -/
structure Db.Secluded (db : Db) (moment : Moment) (request : Request) (companyId : Uuid) :
    Prop where
  cases : ∀ case ∈ db.cases, case.companyId = companyId →
    db.Owns companyId (.driver case.driverId)
  deadlines : ∀ deadline ∈ db.deadlines, deadline.companyId = companyId →
    db.Owns companyId deadline.subject
  keys : ∀ bulletin, db.Due moment request bulletin → bulletin.companyId = companyId →
    ∀ contact, ∀ row ∈ db.outbox, row.dedupKey = bulletin.occasion.key contact →
      row.companyId = companyId

theorem Deadline.notice_company {deadline : Deadline} {today : Date}
    {subject : List (Str × Json)} {bulletin : Bulletin}
    (due : deadline.notice today subject = some bulletin) :
    bulletin.companyId = deadline.companyId := by
  unfold Deadline.notice at due
  split at due
  · cases due
  · cases due
    rfl

namespace Db.Agrees

variable {first second : Db} (agree : first.Agrees second companyId)
include agree

theorem symm : second.Agrees first companyId where
  cases row own := (agree.cases row own).symm
  deadlines row own := (agree.deadlines row own).symm
  drivers row own := (agree.drivers row own).symm
  vehicles row own := (agree.vehicles row own).symm
  activeUsers row own active := (agree.activeUsers row own active).symm
  outbox row own := (agree.outbox row own).symm

theorem contacts {contact : OutboxChannel × Str} (member : contact ∈ first.contacts companyId) :
    contact ∈ second.contacts companyId := by
  obtain ⟨recipient, inList, isContact⟩ := List.mem_flatMap.mp member
  obtain ⟨user, inFirst, rfl⟩ := List.mem_map.mp inList
  obtain ⟨inFirst, notified⟩ := List.mem_filter.mp inFirst
  have own := notified
  simp only [AccountUser.isNotified, decide_eq_true_eq] at own
  have inSecond := (agree.activeUsers user own.1 own.2.2).mp inFirst
  exact List.mem_flatMap.mpr
    ⟨_, List.mem_map.mpr ⟨user, List.mem_filter.mpr ⟨inSecond, notified⟩, rfl⟩, isContact⟩

theorem findDriver {id : Uuid} (owns : first.Owns companyId (.driver id)) :
    first.drivers.find id = second.drivers.find id := by
  obtain ⟨row, inFirst, rfl, own⟩ := owns
  exact (Table.find_of_mem inFirst).trans
    (Table.find_of_mem ((agree.drivers row own).mp inFirst)).symm

theorem findVehicle {id : Uuid} (owns : first.Owns companyId (.vehicle id)) :
    first.vehicles.find id = second.vehicles.find id := by
  obtain ⟨row, inFirst, rfl, own⟩ := owns
  exact (Table.find_of_mem inFirst).trans
    (Table.find_of_mem ((agree.vehicles row own).mp inFirst)).symm

theorem subject {deadline : Deadline} (owns : first.Owns companyId deadline.subject) :
    first.subject deadline = second.subject deadline := by
  unfold Db.subject
  split
  · rename_i driverId isSubject
    rw [agree.findDriver (isSubject ▸ owns)]
  · rename_i vehicleId isSubject
    rw [agree.findVehicle (isSubject ▸ owns)]

/-- A notice to a company is due in both or in neither. -/
theorem due (secluded : first.Secluded moment request companyId) {bulletin : Bulletin}
    (due : first.Due moment request bulletin) (own : bulletin.companyId = companyId) :
    second.Due moment request bulletin := by
  cases due with
  | @escalation case change _ inFirst isOpen notice =>
      have company : case.companyId = companyId :=
        (EscalationCase.notice_loaded notice).2.symm.trans own
      have same := agree.findDriver (secluded.cases case inFirst company)
      rw [Db.escalation, same] at notice
      exact .escalation ((agree.cases case company).mp inFirst) isOpen notice
  | @reminder deadline _ inFirst isOpen notice =>
      have company : deadline.companyId = companyId :=
        (Deadline.notice_company notice).symm.trans own
      have same := agree.subject (secluded.deadlines deadline inFirst company)
      rw [Db.reminder, same] at notice
      exact .reminder ((agree.deadlines deadline company).mp inFirst) isOpen notice

end Db.Agrees

/-! ### Two sweeps -/

/-- What has become of the company's cases and messages from the one database to the next is
the same on both sides. -/
structure TreatedAlike (companyId : Uuid) (first after second last : Db) : Prop where
  cases : ∀ row, row.companyId = companyId → (row ∈ after.cases ↔ row ∈ last.cases)
  messages : ∀ row, row.companyId = companyId → (first.Adds after row ↔ second.Adds last row)

/-- The company's cases are what they were, and it has no new message. -/
structure LeftAlone (companyId : Uuid) (before after : Db) : Prop where
  cases : ∀ row, row.companyId = companyId → (row ∈ after.cases ↔ row ∈ before.cases)
  messages : ∀ row, row.companyId = companyId → ¬ before.Adds after row

theorem Db.not_adds {row : OutboxMessage} : ¬ db.Adds db row :=
  fun adds => adds.elim fun _ holds => holds.2 holds.1

theorem LeftAlone.refl (companyId : Uuid) (db : Db) : LeftAlone companyId db db :=
  ⟨fun _ _ => Iff.rfl, fun _ _ => Db.not_adds⟩

theorem TreatedAlike.symm {first after second last : Db}
    (alike : TreatedAlike companyId first after second last) :
    TreatedAlike companyId second last first after :=
  ⟨fun row own => (alike.cases row own).symm, fun row own => (alike.messages row own).symm⟩

section Pair

variable {sha256 : Str → Str} {validateKennzeichen : Str → Option Str}

end Pair

/-! ### A fleet and its neighbour -/

end Fristenwaechter
