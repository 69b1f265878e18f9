import Fristenwaechter.Sweeps.Notices

/-!
Owns the effect of a sweep that nobody disturbs: the messages it enqueues are the notices
that are due under a free key, and each case is where its notice leaves it.
-/

namespace Fristenwaechter

open Library (Engine Journal Table)

variable {db : Db} {moment : Moment} {request : Request} {companyId : Uuid}

/-! ### What is due -/

/-- The database has a message that only its id tells from the row. -/
def Db.Adds (before after : Db) (row : OutboxMessage) : Prop :=
  ∃ id, { row with id := id } ∈ after.outbox ∧ { row with id := id } ∉ before.outbox

theorem Swept.sweeps {writes : List Write} (swept : Swept db moment request writes) :
    ∀ write ∈ writes, write.Sweeps := by
  intro write member
  rcases swept.only write member with ⟨change, _, rfl⟩ | ⟨bulletin, _, id, contact, _, rfl⟩
  · trivial
  · trivial

theorem Write.Sweeps.keeps {write : Write} (sweeps : write.Sweeps) : write.KeepsOutbox := by
  cases write <;> trivial

/-- The case as a sweep leaves it. -/
def EscalationCase.swept (case : EscalationCase) (moment : Moment) : Request → EscalationCase
  | .sweepEscalations =>
      if case.status = .open then
        (case.notice moment.now moment.today none).elim case fun notice =>
          notice.1.loaded.changed notice.1.current case
      else case
  | _ => case

theorem EscalationCase.breach_changed {case : EscalationCase} (isOpen : case.status = .open) :
    EscalationCase.changed case case.breach.current case ≠ case := by
  intro same
  have status := congrArg EscalationCase.status same
  simp [EscalationCase.changed, EscalationCase.breach, isOpen] at status

theorem EscalationCase.nagged_changed {case : EscalationCase} {today : Date}
    (first : case.lastNagOn ≠ some today) :
    EscalationCase.changed case (case.nagged today).current case ≠ case := by
  intro same
  have nagged := congrArg EscalationCase.lastNagOn same
  simp only [EscalationCase.changed, EscalationCase.nagged, column_stored] at nagged
  exact first nagged.symm

/-- A change that is due takes the case to where the sweep leaves it, and shows. -/
theorem Db.Changes.swept {change : CaseChange} (changes : db.Changes moment request change) :
    change.loaded ∈ db.cases ∧
      EscalationCase.changed change.loaded change.current change.loaded =
        change.loaded.swept moment request ∧
      change.loaded.swept moment request ≠ change.loaded := by
  cases changes with
  | @escalation case _ bulletin stored isOpen due =>
      unfold Db.escalation EscalationCase.notice at due
      split at due
      · rename_i late
        cases due
        have isSwept : case.swept moment .sweepEscalations =
            EscalationCase.changed case case.breach.current case := by
          simp [EscalationCase.swept, isOpen, EscalationCase.notice, late, EscalationCase.breach]
        refine ⟨stored, isSwept.symm, fun same => ?_⟩
        exact EscalationCase.breach_changed isOpen (isSwept.symm.trans same)
      · rename_i inTime
        split at due
        · rename_i first
          cases due
          have isSwept : case.swept moment .sweepEscalations =
              EscalationCase.changed case (case.nagged moment.today).current case := by
            simp [EscalationCase.swept, isOpen, EscalationCase.notice, inTime, first,
              EscalationCase.nagged]
          refine ⟨stored, isSwept.symm, fun same => ?_⟩
          exact EscalationCase.nagged_changed first (isSwept.symm.trans same)
        · cases due

/-- Every stored address and key fits its column. -/
structure Db.Fits (db : Db) : Prop where
  accounts : db.Addressed
  keys : ∀ row ∈ db.outbox, fits 120 row.dedupKey = true

theorem insertOutbox_fits {row : OutboxMessage}
    (valid : (Write.insertOutbox row).check db = .ok ()) : fits 120 row.dedupKey = true := by
  simp only [Write.check, require_then_eq_ok, Bool.and_eq_true] at valid
  exact valid.1.2

theorem replays_checked {writes : List Write} {row : OutboxMessage}
    (replays : Journal.Replays writes db) (member : .insertOutbox row ∈ writes) :
    fits 120 row.dedupKey = true := by
  obtain ⟨first, rest, rfl⟩ := List.append_of_mem member
  exact insertOutbox_fits (Journal.replays_append.mp replays).2.1

theorem Swept.unjammed {writes : List Write} (swept : Swept db moment request writes)
    (replays : Journal.Replays writes db) (stored : db.Fits) : ¬ db.Jammed moment request := by
  rintro ⟨bulletin, due, contact, member, long⟩
  obtain ⟨row, own, inDb | inserted⟩ := swept.queued bulletin due contact member
  · have short := stored.keys row inDb
    rw [own, long] at short
    cases short
  · have short := replays_checked replays inserted
    rw [own, long] at short
    cases short

section Left

variable {sha256 : Str → Str} {validateKennzeichen : Str → Option Str}

end Left

end Fristenwaechter
