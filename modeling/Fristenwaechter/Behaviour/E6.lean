import Fristenwaechter.Flushing
import Fristenwaechter.Services.E6

/-!
Owns what `services/e6` does from a session without pending changes: the pipeline
either stages lock, case, alert and broadcast as a whole or fails at one point, and
`runE6` either keeps that, or leaves the connection as it found it.
-/

namespace Fristenwaechter

variable {session after : Session}

/-! ### The broadcast -/

/-- The messages of a broadcast, one for each contact. -/
def broadcast (companyId triggerCheckId : Uuid) (context : List (Str × Json))
    (createdAt : Instant) (contacts : List (OutboxChannel × Str)) (ids : List Uuid) :
    List OutboxMessage :=
  List.zipWith (fun contact id => e6Message companyId triggerCheckId context contact id createdAt)
    contacts ids

theorem addMessages_ends {companyId triggerCheckId : Uuid} {context : List (Str × Json)}
    {contacts : List (OutboxChannel × Str)} {outcome : Except Error (List Uuid)}
    (ended : postgres.Ends (addMessages companyId triggerCheckId context contacts) session outcome
      after) :
    ∃ drawn : List Sent, drawn.length = contacts.length ∧
      outcome = .ok (drawn.map fun entry => entry.env.fresh) ∧
      after = (session.sawAll drawn).withPending (session.memory.pending ++
        (broadcast companyId triggerCheckId context session.connection.startedAt contacts
          (drawn.map fun entry => entry.env.fresh)).map Write.insertOutbox) := by
  induction contacts generalizing session after outcome with
  | nil =>
      obtain ⟨rfl, rfl⟩ := ended
      refine ⟨[], rfl, rfl, ?_⟩
      obtain ⟨memory, connection, trace⟩ := after
      simp [Session.sawAll, Session.withPending, Session.withMemory, broadcast]
  | cons contact rest inductionHypothesis =>
      obtain ⟨entry, asked, ended⟩ := step_serverDefaults ended
      have ended := step_add ended
      rcases ends_then.mp ended with ⟨ids, last, first, second⟩ | ⟨error, _, first⟩
      · obtain ⟨drawn, length, same, rfl⟩ := inductionHypothesis first
        cases same
        obtain ⟨rfl, rfl⟩ := second
        refine ⟨entry :: drawn, by simp [length], rfl, ?_⟩
        simp [Session.sawAll, Session.saw, Session.withPending, Session.withMemory, broadcast]
      · obtain ⟨_, _, same, _⟩ := inductionHypothesis first
        cases same

/-- The alert goes after the messages. -/
theorem unitOfWork_broadcast (alert : SystemAlert) (messages : List OutboxMessage) :
    unitOfWork (.insertAlert alert :: messages.map Write.insertOutbox) =
      messages.map Write.insertOutbox ++ [.insertAlert alert] := by
  have sorted : unitOfWork (messages.map Write.insertOutbox) =
      messages.map Write.insertOutbox := by
    refine List.Pairwise.insertionSort_eq (List.pairwise_map.mpr ?_)
    exact List.pairwise_of_forall fun _ _ => rfl
  change List.orderedInsert _ _ (unitOfWork (messages.map Write.insertOutbox)) = _
  rw [sorted]
  clear sorted
  induction messages with
  | nil => rfl
  | cons message rest inductionHypothesis =>
      rw [List.map_cons, List.orderedInsert_cons, if_neg (by simp [Write.flushLe, Write.mapper]),
        inductionHypothesis, List.cons_append]

theorem unitOfWork_lock (driver current : Driver) (case : EscalationCase) :
    unitOfWork (driver.update current ++ [.insertCase case]) =
      driver.update current ++ [.insertCase case] := by
  unfold Driver.update
  split <;> rfl

/-! ### The pipeline -/

section Pipeline

variable (driverId companyId triggerCheckId : Uuid) (recipients : List Recipient)

/-- The pipeline has locked the driver row, drawn the instant, the deadline of the case
and the keys of the case. -/
structure ReadsE6 (session : Session) (lock now drawn : Sent) (row driver : Driver)
    (deadline : Instant) (case : EscalationCase) (base : Session) : Prop where
  asked : session.Asked (.driverForUpdate driverId (some companyId)) lock
  found : lock.driver driverId (some companyId) = some row
  isCopy : driver = Memory.instanceOf session.memory.drivers row
  timed : ((session.locked lock [.driver driverId]).withMemory
    (session.memory.loadDriver row)).Asked .now now
  dated : escalationDeadline now.env.now escalationDays = some deadline
  isCase : case = .opened drawn.env.fresh session.connection.startedAt companyId driver.id deadline
  isBase : base = (((session.locked lock [.driver driverId]).withMemory
    (session.memory.loadDriver row)).saw now).saw drawn

/-- The hard lock and the case, as they are flushed. -/
def lockWrites (driver : Driver) (now : Sent) (case : EscalationCase) : List Write :=
  driver.update (driver.lockedAtInstant now.env.now) ++ [.insertCase case]

/-- Broadcast and alert, as they are flushed. -/
def tellWrites (createdAt : Instant) (driver : Driver) (case : EscalationCase) (alert : Sent)
    (ids : List Uuid) : List Write :=
  (broadcast companyId triggerCheckId (e6Context driver case.deadlineAt) createdAt
      (recipients.flatMap Recipient.contacts) ids).map Write.insertOutbox ++
    [.insertAlert (e6Alert alert.env.fresh companyId case.id driver case.deadlineAt)]

inductive HandlesFailed (session : Session) : Except Error E6Result → Session → Prop
  | missing (lock : Sent) (asked : session.Asked (.driverForUpdate driverId (some companyId)) lock)
      (absent : lock.driver driverId (some companyId) = none) :
      HandlesFailed session (.error (.driverNotFound driverId)) (session.saw lock)
  | undated (lock now : Sent) (row : Driver)
      (none : escalationDeadline now.env.now escalationDays = none) :
      HandlesFailed session (.error .overflow)
        (((session.locked lock [.driver driverId]).withMemory
          (session.memory.loadDriver row)).saw now)
  | stale (lock now drawn : Sent) (row driver : Driver) (deadline : Instant)
      (case : EscalationCase) (base after : Session)
      (reads : ReadsE6 driverId companyId session lock now drawn row driver deadline case base)
      (refused : Refused (lockWrites driver now case) base .staleData after) :
      HandlesFailed session (.error (.staleDriverState driverId)) after
  | unlocked (lock now drawn : Sent) (row driver : Driver) (deadline : Instant)
      (case : EscalationCase) (base after : Session) (error : Error)
      (reads : ReadsE6 driverId companyId session lock now drawn row driver deadline case base)
      (fresh : error ≠ .staleData)
      (refused : Refused (lockWrites driver now case) base error after) :
      HandlesFailed session (.error error) after
  | untold (lock now drawn : Sent) (row driver : Driver) (deadline : Instant)
      (case : EscalationCase) (base middle after : Session) (alert : Sent) (told : List Sent)
      (error : Error)
      (reads : ReadsE6 driverId companyId session lock now drawn row driver deadline case base)
      (locks : Executed (lockWrites driver now case) base middle)
      (length : told.length = (recipients.flatMap Recipient.contacts).length)
      (refused : Refused (tellWrites companyId triggerCheckId recipients
          session.connection.startedAt driver case alert (told.map fun entry => entry.env.fresh))
        ((middle.saw alert).sawAll told) error after) :
      HandlesFailed session (.error error) after
  | done (lock now drawn : Sent) (row driver : Driver) (deadline : Instant)
      (case : EscalationCase) (base middle after : Session) (alert : Sent) (told : List Sent)
      (reads : ReadsE6 driverId companyId session lock now drawn row driver deadline case base)
      (locks : Executed (lockWrites driver now case) base middle)
      (length : told.length = (recipients.flatMap Recipient.contacts).length)
      (tells : Executed (tellWrites companyId triggerCheckId recipients
          session.connection.startedAt driver case alert (told.map fun entry => entry.env.fresh))
        ((middle.saw alert).sawAll told) after) :
      HandlesFailed session
        (.ok ⟨case.id, some alert.env.fresh, told.map fun entry => entry.env.fresh, false⟩) after

end Pipeline

variable {driverId companyId triggerCheckId : Uuid} {recipients : List Recipient}

/-- The flush of lock and case: a lost version race is renamed, any other failure is
raised as it is. -/
private theorem step_lock {Final : Type} {writes : List Write} {next : Unit → Work Final}
    {outcome : Except Error Final} (clean : session.memory.pending = [])
    (ended : postgres.Ends
      ((tryCatch flush fun error =>
        match error with
        | .staleData => throw (.staleDriverState driverId)
        | other => throw other : Work Unit) >>= next) (session.withPending writes) outcome after) :
    (∃ middle, Executed (unitOfWork writes) session middle ∧
        postgres.Ends (next ()) middle outcome after) ∨
      (Refused (unitOfWork writes) session .staleData after ∧
        outcome = .error (.staleDriverState driverId)) ∨
      ∃ error, error ≠ .staleData ∧ Refused (unitOfWork writes) session error after ∧
        outcome = .error error := by
  have flushed : ∀ {answer : Except Error Unit} {last},
      postgres.Ends flush (session.withPending writes) answer last →
      (answer = .ok () ∧ Executed (unitOfWork writes) session last) ∨
        ∃ error, answer = .error error ∧ Refused (unitOfWork writes) session error last := by
    intro answer last first
    have cases := flush_ends first
    rwa [Session.withPending_withPending, withPending_self clean,
      Session.withPending_pending] at cases
  rcases ends_then.mp ended with ⟨⟨⟩, middle, first, second⟩ | ⟨error, rfl, first⟩
  · rcases ends_tryCatch.mp first with ⟨_, _, first⟩ | ⟨error, last, _, handled⟩
    · rcases flushed first with ⟨_, executed⟩ | ⟨_, same, _⟩
      · exact .inl ⟨middle, executed, second⟩
      · cases same
    · split at handled <;> cases handled.1
  · rcases ends_tryCatch.mp first with ⟨_, same, _⟩ | ⟨raised, last, first, handled⟩
    · cases same
    · rcases flushed first with ⟨same, _⟩ | ⟨_, same, refused⟩
      · cases same
      · cases same
        split at handled
        · obtain ⟨same, rfl⟩ := handled
          cases same
          exact .inr (.inl ⟨refused, rfl⟩)
        · rename_i other
          obtain ⟨same, rfl⟩ := handled
          cases same
          exact .inr (.inr ⟨error, other, refused, rfl⟩)

theorem handleFailedLicenseCheck_ends {outcome : Except Error E6Result}
    (clean : session.memory.pending = [])
    (ended : postgres.Ends
      (handleFailedLicenseCheck driverId companyId triggerCheckId recipients) session outcome
      after) :
    HandlesFailed driverId companyId triggerCheckId recipients session outcome after := by
  obtain ⟨lock, asked, ⟨absent, ended⟩ | ⟨row, found, ended⟩⟩ := step_driverForUpdate clean ended
  · obtain ⟨rfl, rfl⟩ := ended
    exact .missing lock asked absent
  obtain ⟨now, timed, ended⟩ := step_now ended
  rcases step_orThrow ended with ⟨deadline, dated, ended⟩ | ⟨none, rfl, rfl⟩
  · have ended := step_addAll ended
    obtain ⟨drawn, _, ended⟩ := step_serverDefaults ended
    have ended := step_add ended
    have reads : ReadsE6 driverId companyId session lock now drawn row
        (Memory.instanceOf session.memory.drivers row) deadline _ _ :=
      ⟨asked, found, rfl, timed, dated, rfl, rfl⟩
    generalize Memory.instanceOf session.memory.drivers row = driver at ended reads
    have cleanBase : ((((session.locked lock [.driver driverId]).withMemory
        (session.memory.loadDriver row)).saw now).saw drawn).memory.pending = [] := by
      simp [clean]
    simp only [Session.withPending_saw, Session.withPending_withPending,
      Session.withPending_pending, Session.saw_memory, Session.withMemory_memory,
      Memory.loadDriver_pending, clean, List.nil_append] at ended
    rcases step_lock cleanBase ended with ⟨middle, locks, ended⟩ | ⟨refused, rfl⟩ |
      ⟨error, fresh, refused, rfl⟩
    · rw [unitOfWork_lock] at locks
      have cleanMiddle : middle.memory.pending = [] := locks.pending.trans cleanBase
      obtain ⟨alert, _, ended⟩ := step_serverDefaults ended
      have ended := step_add ended
      rw [Session.saw_memory, cleanMiddle, List.nil_append] at ended
      rcases ends_then.mp ended with ⟨ids, last, first, second⟩ | ⟨error, _, first⟩
      · obtain ⟨told, length, same, rfl⟩ := addMessages_ends first
        cases same
        have started : middle.connection.startedAt = session.connection.startedAt :=
          locks.grown.startedAt
        simp only [Session.withPending_sawAll, Session.withPending_withPending,
          Session.withPending_pending, Session.withPending_connection, Session.saw_connection,
          started, List.singleton_append] at second
        have cleanTold : ((middle.saw alert).sawAll told).memory.pending = [] := cleanMiddle
        rcases step_flush_of cleanTold second with ⟨last, tells, rest⟩ | ⟨error, rfl, refused⟩
        · obtain ⟨rfl, rfl⟩ := rest
          rw [unitOfWork_broadcast] at tells
          exact .done lock now drawn row driver deadline _ _ middle _ alert told reads locks length
            tells
        · rw [unitOfWork_broadcast] at refused
          exact .untold lock now drawn row driver deadline _ _ middle _ alert told error reads locks
            length refused
      · obtain ⟨_, _, same, _⟩ := addMessages_ends first
        cases same
    · rw [unitOfWork_lock] at refused
      exact .stale lock now drawn row driver deadline _ _ after reads refused
    · rw [unitOfWork_lock] at refused
      exact .unlocked lock now drawn row driver deadline _ _ after error reads fresh refused
  · exact .undated lock now row none

/-! ### The savepoint around it -/

theorem ReadsE6.grown {lock now drawn : Sent} {row driver : Driver} {deadline : Instant}
    {case : EscalationCase} {base : Session}
    (reads : ReadsE6 driverId companyId session lock now drawn row driver deadline case base) :
    Grown session base := by
  rw [reads.isBase]
  exact ((((Grown.locked session lock _).trans (.withMemory _ _)).trans (.saw _ now)).trans
    (.saw _ drawn))

theorem HandlesFailed.grown {outcome : Except Error E6Result}
    (handled : HandlesFailed driverId companyId triggerCheckId recipients session outcome after) :
    Grown session after := by
  cases handled with
  | missing lock asked absent => exact .saw _ _
  | undated lock now row none =>
      exact ((Grown.locked session lock _).trans (.withMemory _ _)).trans (.saw _ now)
  | stale lock now drawn row driver deadline case base _ reads refused =>
      exact reads.grown.trans refused.grown
  | unlocked lock now drawn row driver deadline case base _ error reads fresh refused =>
      exact reads.grown.trans refused.grown
  | untold lock now drawn row driver deadline case base middle _ alert told error reads locks length
      refused =>
      exact ((reads.grown.trans locks.grown).trans ((Grown.saw _ _).trans (.sawAll _ _))).trans
        refused.grown
  | done lock now drawn row driver deadline case base middle _ alert told reads locks length
      tells =>
      exact ((reads.grown.trans locks.grown).trans ((Grown.saw _ _).trans (.sawAll _ _))).trans
        tells.grown

section RunE6

variable (driverId companyId triggerCheckId recipients)

inductive RunsE6 (session : Session) : Except Error E6Result → Session → Prop
  | staged (save release : Sent) (middle : Session) (result : E6Result)
      (saved : session.Asked .savepoint save)
      (handled : HandlesFailed driverId companyId triggerCheckId recipients (session.saved save)
        (.ok result) middle) (asked : middle.Asked .release release) :
      RunsE6 session (.ok result) (middle.released release)
  | replayed (save back seen : Sent) (middle : Session) (constraint : Constraint)
      (existing : EscalationCase) (saved : session.Asked .savepoint save)
      (handled : HandlesFailed driverId companyId triggerCheckId recipients (session.saved save)
        (.error (.integrity constraint)) middle)
      (asked : (middle.rolledBack back).Asked (.openCase driverId) seen)
      (found : seen.openCase driverId = some existing) :
      RunsE6 session (.ok ⟨existing.id, none, [], true⟩) ((middle.rolledBack back).saw seen)
  | unexplained (save back seen : Sent) (middle : Session) (constraint : Constraint)
      (saved : session.Asked .savepoint save)
      (handled : HandlesFailed driverId companyId triggerCheckId recipients (session.saved save)
        (.error (.integrity constraint)) middle)
      (asked : (middle.rolledBack back).Asked (.openCase driverId) seen)
      (found : seen.openCase driverId = none) :
      RunsE6 session (.error (.integrity constraint)) ((middle.rolledBack back).saw seen)
  | failed (save back : Sent) (middle : Session) (error : Error)
      (saved : session.Asked .savepoint save)
      (handled : HandlesFailed driverId companyId triggerCheckId recipients (session.saved save)
        (.error error) middle) (other : ∀ constraint, error ≠ .integrity constraint) :
      RunsE6 session (.error error) (middle.rolledBack back)

end RunE6

theorem HandlesFailed.rolledBack {outcome : Except Error E6Result} {save back : Sent}
    (unsaved : session.connection.savepoint = none)
    (handled : HandlesFailed driverId companyId triggerCheckId recipients (session.saved save)
      outcome after) : (after.rolledBack back).connection = session.connection := by
  obtain ⟨⟨more, whole⟩, _, tenant, started, saved⟩ := handled.grown
  have cut : after.connection.journal.take session.connection.journal.length =
      session.connection.journal := by
    rw [← whole]
    exact List.take_left
  change (⟨after.connection.tenant, after.connection.startedAt,
    after.connection.journal.take (after.connection.savepoint.getD 0), none⟩ : Connection) = _
  rw [tenant, started, saved]
  change (⟨session.connection.tenant, session.connection.startedAt,
    after.connection.journal.take session.connection.journal.length, none⟩ : Connection) = _
  rw [cut, ← unsaved]

theorem HandlesFailed.clean {result : E6Result}
    (handled : HandlesFailed driverId companyId triggerCheckId recipients session (.ok result)
      after) (clean : session.memory.pending = []) : after.memory.pending = [] := by
  cases handled with
  | done lock now drawn row driver deadline case base middle _ alert told reads locks length
      tells =>
      have cleanBase : base.memory.pending = [] := by simp [reads.isBase, clean]
      exact tells.pending.trans (locks.pending.trans cleanBase)

theorem runE6_ends {outcome : Except Error E6Result} (clean : session.memory.pending = [])
    (ended : postgres.Ends (runE6 driverId companyId triggerCheckId recipients) session outcome
      after) : RunsE6 driverId companyId triggerCheckId recipients session outcome after := by
  have handles : ∀ {save : Sent} {answer : Except Error E6Result} {last : Session},
      postgres.Ends (do
        let value ← handleFailedLicenseCheck driverId companyId triggerCheckId recipients
        flush
        return value) (session.saved save) answer last →
      HandlesFailed driverId companyId triggerCheckId recipients (session.saved save) answer
        last := by
    intro save answer last body
    rcases ends_then.mp body with ⟨value, middle, first, rest⟩ | ⟨error, rfl, first⟩
    · have handled := handleFailedLicenseCheck_ends (by simp [clean]) first
      have cleanMiddle := handled.clean (by simp [clean])
      rcases ends_then.mp rest with ⟨⟨⟩, _, flushed, done⟩ | ⟨error, _, flushed⟩
      · obtain ⟨_, rfl⟩ := (flush_ends_clean cleanMiddle).mp flushed
        obtain ⟨rfl, rfl⟩ := done
        exact handled
      · cases ((flush_ends_clean cleanMiddle).mp flushed).1
    · exact handleFailedLicenseCheck_ends (by simp [clean]) first
  rcases ends_tryCatch.mp ended with ⟨result, rfl, first⟩ | ⟨error, middle, first, handled⟩
  · obtain ⟨save, saved, ⟨_, middle, release, body, asked, same, rfl⟩ | ⟨_, _, _, _, _, same, _⟩⟩ :=
      nested_ends clean first
    · cases same
      exact .staged save release middle result saved (handles body) asked
    · cases same
  · obtain ⟨save, saved, ⟨_, _, _, _, _, same, _⟩ | ⟨_, middle, back, body, _, same, rfl⟩⟩ :=
      nested_ends clean first
    · cases same
    · cases same
      split at handled
      · rename_i constraint
        obtain ⟨seen, asked, rest⟩ := step_openCase rfl handled
        cases found : seen.openCase driverId with
        | none =>
            rw [found] at rest
            obtain ⟨rfl, rfl⟩ := rest
            exact .unexplained save back seen middle constraint saved (handles body) asked found
        | some existing =>
            rw [found] at rest
            obtain ⟨rfl, rfl⟩ := rest
            exact .replayed save back seen middle constraint existing saved (handles body) asked
              found
      · rename_i other
        obtain ⟨rfl, rfl⟩ := handled
        exact .failed save back middle error saved (handles body) other

end Fristenwaechter
