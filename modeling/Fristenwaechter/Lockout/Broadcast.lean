import Mathlib.Data.List.Dedup
import Fristenwaechter.Lockout.Replays
import Fristenwaechter.Notifications.Occasions

/-!
Owns which recipients stop a lockout: the broadcast belongs to the pipeline, so a message
that cannot be inserted undoes the lock and the case with it.
-/

namespace Fristenwaechter

open Library (Journal Table)

variable {session after : Session} {db : Db}

/-! ### Flushes nobody interferes with -/

theorem Executed.replays {writes : List Write} (executed : Executed writes session after)
    (sees : ∀ entry ∈ after.trace, entry.world.db = db) :
    Journal.Replays writes (db.after session.writes) := by
  induction writes generalizing session with
  | nil => trivial
  | cons write rest inductionHypothesis =>
      obtain ⟨entry, asked, valid, remaining⟩ := executed
      have inTrace : entry ∈ after.trace := remaining.grown.trace.subset (by simp)
      rw [asked.db, sees entry inTrace] at valid
      have later := inductionHypothesis remaining
      rw [Session.wrote_writes, Db.after_append] at later
      exact ⟨valid, later⟩

theorem Refused.not_replays {writes : List Write} {error : Error}
    (refused : Refused writes session error after)
    (sees : ∀ entry ∈ after.trace, entry.world.db = db) :
    ¬ Journal.Replays writes (db.after session.writes) := by
  obtain ⟨done, write, rest, middle, entry, rfl, executed, asked, failed, rfl⟩ := refused
  intro replays
  have valid : write.check (db.after middle.writes) = .ok () := by
    have further := (Journal.replays_append.mp replays).2.1
    rw [executed.writes, Db.after_append]
    exact further
  rw [asked.db, sees entry (by simp), valid] at failed
  cases failed

/-! ### The messages of a broadcast -/

theorem insert_free {row : OutboxMessage} {rest : List OutboxMessage}
    (once : row.id ∉ rest.map OutboxMessage.id)
    (free : ∀ other ∈ rest, db.outbox.find other.id = none) :
    ∀ other ∈ rest, (db.outbox.insert row).find other.id = none := by
  intro other member
  rw [Table.find_insert_other]
  · exact free other member
  · intro same
    exact once (List.mem_map.mpr ⟨other, member, same.symm⟩)

/-- Messages can be inserted exactly if their keys fit, are free, and differ. -/
theorem replays_messages {rows : List OutboxMessage} (distinct : (rows.map OutboxMessage.id).Nodup)
    (free : ∀ row ∈ rows, db.outbox.find row.id = none)
    (fit : ∀ row ∈ rows, fits 254 row.recipient = true ∧ fits 40 row.template = true) :
    Journal.Replays (rows.map Write.insertOutbox) db ↔
      (rows.map OutboxMessage.dedupKey).Nodup ∧ ∀ row ∈ rows, fits 120 row.dedupKey = true ∧
        ∀ stored ∈ db.outbox, stored.dedupKey ≠ row.dedupKey := by
  induction rows generalizing db with
  | nil => simp [Journal.Replays]
  | cons row rest inductionHypothesis =>
      rw [List.forall_mem_cons] at free fit
      rw [List.map_cons, List.nodup_cons] at distinct
      have checks : (Write.insertOutbox row).check db = .ok () ↔ fits 120 row.dedupKey = true ∧
          ∀ stored ∈ db.outbox, stored.dedupKey ≠ row.dedupKey := by
        simp [Write.check, requireNew, fit.1, free.1, Table.mem_iff]
      have laterFree := insert_free distinct.1 free.2
      have later := @inductionHypothesis ((Write.insertOutbox row).apply db) distinct.2 laterFree
        fit.2
      have stored : ∀ other, other ∈ ((Write.insertOutbox row).apply db).outbox ↔
          other ∈ db.outbox ∨ other = row := by
        intro other
        change other ∈ db.outbox.insert row ↔ _
        rw [Table.mem_insert]
        simp only [OutboxMessage.key_eq, free.1, and_true]
      change (Write.insertOutbox row).check db = .ok () ∧
        Journal.Replays (rest.map Write.insertOutbox) ((Write.insertOutbox row).apply db) ↔ _
      rw [checks, later, List.map_cons, List.nodup_cons, List.forall_mem_cons]
      constructor
      · rintro ⟨⟨short, unused⟩, others, each⟩
        refine ⟨⟨fun again => ?_, others⟩, ⟨short, unused⟩, fun other member => ?_⟩
        · obtain ⟨other, member, same⟩ := List.mem_map.mp again
          exact (each other member).2 row ((stored row).mpr (.inr rfl)) same.symm
        · exact ⟨(each other member).1, fun old inDb =>
            (each other member).2 old ((stored old).mpr (.inl inDb))⟩
      · rintro ⟨⟨once, others⟩, own, each⟩
        refine ⟨own, others, fun other member => ⟨(each other member).1, fun old inDb => ?_⟩⟩
        rcases (stored old).mp inDb with before | rfl
        · exact (each other member).2 old before
        · exact fun same => once (List.mem_map.mpr ⟨other, member, same.symm⟩)

theorem outbox_after_messages {rows : List OutboxMessage}
    (distinct : (rows.map OutboxMessage.id).Nodup)
    (free : ∀ row ∈ rows, db.outbox.find row.id = none) :
    (db.after (rows.map Write.insertOutbox)).outbox.rows = db.outbox.rows ++ rows := by
  induction rows generalizing db with
  | nil => simp
  | cons row rest inductionHypothesis =>
      rw [List.forall_mem_cons] at free
      rw [List.map_cons, List.nodup_cons] at distinct
      have laterFree := insert_free distinct.1 free.2
      have later := @inductionHypothesis ((Write.insertOutbox row).apply db) distinct.2 laterFree
      rw [List.map_cons, Db.after_cons, later]
      change (db.outbox.insert row).rows ++ rest = _
      rw [Table.insert_rows free.1, List.append_assoc, List.singleton_append]

/-! ### The pipeline on an undisturbed database -/

section Pipeline

variable {driverId companyId triggerCheckId : Uuid} {recipients : List Recipient} {row : Driver}

/-- The call as it is made: of a driver of the company that has no OPEN case, with the rows
and the copy of the driver as the transaction sees them. -/
structure CallsE6 (db : Db) (session : Session) (driverId companyId : Uuid) (row : Driver) :
    Prop where
  clean : session.memory.pending = []
  unsaved : session.connection.savepoint = none
  stored : (db.after session.writes).drivers.find driverId = some row
  visible : session.connection.sees row.companyId = true
  company : row.companyId = companyId
  copied : Memory.instanceOf session.memory.drivers row = row
  named : fits 80 row.firstName = true ∧ fits 80 row.lastName = true
  notOpen : ∀ case ∈ (db.after session.writes).cases, case.driverId = driverId →
    case.status ≠ .open

/-- Nobody else commits, generated ids are new, and the calendar does not end within the
week. -/
structure Undisturbed (db : Db) (writes : List Write) (statements : List Sent) : Prop where
  sees : ∀ entry ∈ statements, entry.world.db = db
  distinct : (statements.map fun entry => entry.env.fresh).Nodup
  newCase : ∀ entry ∈ statements, (db.after writes).cases.find entry.env.fresh = none
  newAlert : ∀ entry ∈ statements, (db.after writes).alerts.find entry.env.fresh = none
  newMessage : ∀ entry ∈ statements, (db.after writes).outbox.find entry.env.fresh = none
  dated : ∀ entry ∈ statements, (escalationDeadline entry.env.now escalationDays).isSome = true

/-- What `account_user` can hold of a recipient. -/
structure Recipient.Stored (recipient : Recipient) : Prop where
  email : ∀ email, recipient.email = some email → email.length ≤ 254
  phone : ∀ phone, recipient.phoneE164 = some phone → phone.length ≤ 20

/-- Nobody is named twice, every e-mail address leaves room for the rest of its key, and the
keys are free. -/
structure Tellable (db : Db) (triggerCheckId : Uuid) (recipients : List Recipient) : Prop where
  distinct : (recipients.flatMap Recipient.contacts).Nodup
  short : ∀ recipient ∈ recipients, ∀ email, recipient.email = some email → email.length ≤ 74
  unused : ∀ contact ∈ recipients.flatMap Recipient.contacts, ∀ stored ∈ db.outbox,
    stored.dedupKey ≠ e6Key triggerCheckId contact

/-- The driver is locked, has exactly one OPEN case, and there is one new urgent message for
every contact. -/
structure LockedAndTold (before after : Db) (driverId companyId : Uuid)
    (contacts : List (OutboxChannel × Str)) : Prop where
  locked : ∃ driver ∈ after.drivers, driver.id = driverId ∧ driver.isAuthorizedToDrive = false
  opened : ∃ case ∈ after.cases, case.driverId = driverId ∧ case.status = .open ∧
    ∀ other ∈ after.cases, other.driverId = driverId → other.status = .open → other = case
  told : ∃ messages, after.outbox.rows = before.outbox.rows ++ messages ∧
    (∀ message ∈ messages, message.companyId = companyId ∧ message.priority = 0) ∧
    (messages.map fun message => (message.channel, message.recipient)).Perm contacts.dedup

/-! ### Contacts and messages -/

theorem mem_contacts {recipient : Recipient} {contact : OutboxChannel × Str} :
    contact ∈ recipient.contacts ↔ contact.2 ≠ [] ∧
      (contact.1 = .email ∧ recipient.email = some contact.2 ∨
        contact.1 = .sms ∧ recipient.phoneE164 = some contact.2) := by
  obtain ⟨channel, address⟩ := contact
  obtain ⟨email, phone⟩ := recipient
  rcases email with _ | _ | ⟨c, email⟩ <;> rcases phone with _ | _ | ⟨d, phone⟩ <;>
    cases address <;> simp [Recipient.contacts, eq_comm]

/-- Of what fits into `account_user`, an e-mail address of more than 74 characters only is
too long for its key. -/
theorem keys_fit (stored : ∀ recipient ∈ recipients, recipient.Stored) :
    (∀ contact ∈ recipients.flatMap Recipient.contacts,
        fits 120 (e6Key triggerCheckId contact) = true) ↔
      ∀ recipient ∈ recipients, ∀ email, recipient.email = some email → email.length ≤ 74 := by
  have emailKey : ∀ email, (e6Key triggerCheckId (.email, email)).length = 46 + email.length := by
    intro email
    simp [e6Key, OutboxChannel.text]
    omega
  have smsKey : ∀ phone, (e6Key triggerCheckId (.sms, phone)).length = 44 + phone.length := by
    intro phone
    simp [e6Key, OutboxChannel.text]
    omega
  constructor
  · intro each recipient member email isEmail
    by_cases empty : email = []
    · simp [empty]
    · have contact : (OutboxChannel.email, email) ∈ recipient.contacts :=
        mem_contacts.mpr ⟨empty, .inl ⟨rfl, isEmail⟩⟩
      have fit := each _ (List.mem_flatMap.mpr ⟨recipient, member, contact⟩)
      simp only [fits, decide_eq_true_eq, emailKey] at fit
      omega
  · rintro short ⟨channel, address⟩ inside
    obtain ⟨recipient, member, contact⟩ := List.mem_flatMap.mp inside
    obtain ⟨_, ⟨isChannel, isEmail⟩ | ⟨isChannel, isPhone⟩⟩ := mem_contacts.mp contact
    · cases isChannel
      have length := short recipient member address isEmail
      simp only [fits, decide_eq_true_eq, emailKey]
      omega
    · cases isChannel
      have length := (stored recipient member).phone address isPhone
      simp only [fits, decide_eq_true_eq, smsKey]
      omega

theorem broadcast_fields {context : List (Str × Json)} {createdAt : Instant}
    {contacts : List (OutboxChannel × Str)} {ids : List Uuid}
    (length : ids.length = contacts.length) :
    (broadcast companyId triggerCheckId context createdAt contacts ids).map OutboxMessage.id = ids ∧
      (broadcast companyId triggerCheckId context createdAt contacts ids).map
        (fun message => (message.channel, message.recipient)) = contacts ∧
      (broadcast companyId triggerCheckId context createdAt contacts ids).map
        OutboxMessage.dedupKey = contacts.map (e6Key triggerCheckId) ∧
      ∀ message ∈ broadcast companyId triggerCheckId context createdAt contacts ids,
        message.companyId = companyId ∧ message.priority = 0 ∧
          message.template = "fsk_failed_critical".toList := by
  induction contacts generalizing ids with
  | nil =>
      rw [List.eq_nil_of_length_eq_zero length]
      simp [broadcast]
  | cons contact rest inductionHypothesis =>
      cases ids with
      | nil => simp at length
      | cons id ids =>
          obtain ⟨sameIds, sameContacts, sameKeys, each⟩ :=
            inductionHypothesis (Nat.succ.inj length)
          rw [broadcast] at sameIds sameContacts sameKeys each
          simp only [broadcast, List.zipWith_cons_cons, List.map_cons, sameIds, sameContacts,
            sameKeys, List.forall_mem_cons]
          exact ⟨rfl, rfl, rfl, ⟨rfl, rfl, rfl⟩, each⟩

/-! ### The writes of the pipeline -/

theorem e6Key_inj : Function.Injective (e6Key triggerCheckId) := by
  intro first second same
  have sameKey : (Occasion.failed triggerCheckId).key first =
      (Occasion.failed triggerCheckId).key second := same
  exact (Occasion.key_eq_iff.mp sameKey).2

section Tell

variable {createdAt : Instant} {driver : Driver} {case : EscalationCase} {alert : Sent}
variable {ids : List Uuid}

theorem broadcast_fits {context : List (Str × Json)}
    (length : ids.length = (recipients.flatMap Recipient.contacts).length)
    (stored : ∀ recipient ∈ recipients, recipient.Stored) :
    ∀ message ∈ broadcast companyId triggerCheckId context createdAt
        (recipients.flatMap Recipient.contacts) ids,
      fits 254 message.recipient = true ∧ fits 40 message.template = true := by
  intro message member
  obtain ⟨_, sameContacts, _, each⟩ := @broadcast_fields companyId triggerCheckId context
    createdAt (recipients.flatMap Recipient.contacts) ids length
  refine ⟨?_, by rw [(each message member).2.2]; decide⟩
  have inside : (message.channel, message.recipient) ∈ recipients.flatMap Recipient.contacts := by
    rw [← sameContacts]
    exact List.mem_map.mpr ⟨message, member, rfl⟩
  obtain ⟨recipient, isRecipient, contact⟩ := List.mem_flatMap.mp inside
  obtain ⟨_, ⟨_, isEmail⟩ | ⟨_, isPhone⟩⟩ := mem_contacts.mp contact
  · simpa [fits] using (stored recipient isRecipient).email _ isEmail
  · have length : message.recipient.length ≤ 20 := (stored recipient isRecipient).phone _ isPhone
    simp only [fits, decide_eq_true_eq]
    omega

theorem alert_replays {messages : List OutboxMessage}
    (newAlert : db.alerts.find alert.env.fresh = none) :
    Journal.Replays
      [Write.insertAlert (e6Alert alert.env.fresh companyId case.id driver case.deadlineAt)]
      (db.after (messages.map Write.insertOutbox)) := by
  refine ⟨?_, trivial⟩
  change (Write.insertAlert _).check _ = .ok ()
  have sameAlerts : (db.after (messages.map Write.insertOutbox)).alerts = db.alerts := by
    apply Db.after_alerts
    intro write member
    obtain ⟨message, _, rfl⟩ := List.mem_map.mp member
    simp [Write.table]
  simp only [Write.check, requireNew, require_then_eq_ok, require_eq_ok,
    Option.isNone_iff_eq_none, sameAlerts]
  exact ⟨(by decide : fits 40 "FSK_FAILED_LOCK".toList = true), newAlert⟩

theorem broadcast_keys {context : List (Str × Json)} {contacts : List (OutboxChannel × Str)}
    (length : ids.length = contacts.length) :
    (((broadcast companyId triggerCheckId context createdAt contacts ids).map
        OutboxMessage.dedupKey).Nodup ↔ contacts.Nodup) ∧
      ∀ property : Str → Prop,
        (∀ message ∈ broadcast companyId triggerCheckId context createdAt contacts ids,
          property message.dedupKey) ↔
        ∀ contact ∈ contacts, property (e6Key triggerCheckId contact) := by
  obtain ⟨_, _, sameKeys, _⟩ := @broadcast_fields companyId triggerCheckId context createdAt
    contacts ids length
  refine ⟨?_, fun property => ?_⟩
  · rw [sameKeys]
    exact List.nodup_map_iff e6Key_inj
  · have mapped := @List.forall_mem_map _ _ OutboxMessage.dedupKey
      (broadcast companyId triggerCheckId context createdAt contacts ids) property
    rw [← mapped, sameKeys, List.forall_mem_map]

/-- Broadcast and alert go through exactly if the recipients can be told. -/
theorem tellWrites_iff (length : ids.length = (recipients.flatMap Recipient.contacts).length)
    (distinct : ids.Nodup) (newMessage : ∀ id ∈ ids, db.outbox.find id = none)
    (newAlert : db.alerts.find alert.env.fresh = none)
    (stored : ∀ recipient ∈ recipients, recipient.Stored) :
    Journal.Replays
        (tellWrites companyId triggerCheckId recipients createdAt driver case alert ids) db ↔
      Tellable db triggerCheckId recipients := by
  obtain ⟨sameIds, _, _, _⟩ := @broadcast_fields companyId triggerCheckId
    (e6Context driver case.deadlineAt) createdAt (recipients.flatMap Recipient.contacts) ids length
  have messagesFit := @replays_messages db _ (sameIds.symm ▸ distinct)
    (fun message member => newMessage message.id (sameIds ▸ List.mem_map_of_mem member))
    (broadcast_fits length stored)
  obtain ⟨distinctKeys, eachKey⟩ := @broadcast_keys companyId triggerCheckId createdAt ids
    (e6Context driver case.deadlineAt) (recipients.flatMap Recipient.contacts) length
  have fitKeys := @keys_fit triggerCheckId recipients stored
  rw [distinctKeys, eachKey fun key => fits 120 key = true ∧
    ∀ stored ∈ db.outbox, stored.dedupKey ≠ key] at messagesFit
  rw [tellWrites, Journal.replays_append]
  constructor
  · rintro ⟨replays, _⟩
    obtain ⟨once, keys⟩ := messagesFit.mp replays
    exact ⟨once, fitKeys.mp fun contact inside => (keys contact inside).1,
      fun contact inside => (keys contact inside).2⟩
  · intro tellable
    refine ⟨messagesFit.mpr ⟨tellable.distinct, fun contact inside => ⟨?_, ?_⟩⟩,
      alert_replays newAlert⟩
    · exact fitKeys.mpr tellable.short contact inside
    · exact tellable.unused contact inside

end Tell

/-! ### The call -/

section Call

variable {lock now drawn : Sent} {loaded driver : Driver} {deadline : Instant}
variable {case : EscalationCase} {base middle : Session}

theorem CallsE6.found (called : CallsE6 db session driverId companyId row) :
    (db.after session.writes).drivers.find row.id = some row := by
  have isRow := Table.key_of_find called.stored
  simp only [Driver.key_eq] at isRow
  rw [isRow]
  exact called.stored

theorem order_sublist {alert : Sent} {told : List Sent}
    (order : ((middle.saw alert).sawAll told).trace <+: after.trace) :
    (alert :: told).Sublist after.trace := by
  have tail : (alert :: told).Sublist ((middle.saw alert).sawAll told).trace := by
    simp
  exact tail.trans order.sublist

theorem CallsE6.reads (called : CallsE6 db session driverId companyId row) {save : Sent}
    (sees : ∀ entry ∈ after.trace, entry.world.db = db) (inTrace : lock ∈ after.trace)
    (asked : (session.saved save).Asked (.driverForUpdate driverId (some companyId)) lock) :
    lock.driver driverId (some companyId) = some row := by
  have view : lock.db = db.after session.writes := by
    rw [asked.db, sees lock inTrace]
    rfl
  have visible : lock.connection.sees row.companyId = true := by
    rw [asked.connection]
    exact called.visible
  rw [Sent.driver, view, called.stored, Option.filter_some, visible, called.company]
  simp

theorem lockWrites_replays (called : CallsE6 db session driverId companyId row)
    (newCase : (db.after session.writes).cases.find case.id = none)
    (own : case.driverId = driverId) :
    Journal.Replays (lockWrites row now case) (db.after session.writes) := by
  have isRow := Table.key_of_find called.stored
  simp only [Driver.key_eq] at isRow
  have insertable : ∀ changed : Db, changed.cases = (db.after session.writes).cases →
      (Write.insertCase case).check changed = .ok () := by
    intro changed same
    simp only [Write.check, requireNew, EscalationCase.key_eq, require_then_eq_ok,
      require_eq_ok, same, newCase, Option.isNone_none, List.all_eq_true, true_and, own]
    intro stored member
    simp only [not_and, decide_eq_true_eq]
    exact called.notOpen stored member
  unfold lockWrites Driver.update
  split
  · exact ⟨insertable _ rfl, trivial⟩
  · refine ⟨?_, insertable _ rfl, trivial⟩
    change (Write.updateDriver row _).check _ = .ok ()
    simp [Write.check, Driver.lockedAtInstant, called.named, isRow, called.stored]

theorem lockWrites_after (found : db.drivers.find row.id = some row) :
    (db.after (lockWrites row now case)).outbox = db.outbox ∧
      (db.after (lockWrites row now case)).alerts = db.alerts ∧
      (db.after (lockWrites row now case)).cases = db.cases.insert case ∧
      ∃ driver ∈ (db.after (lockWrites row now case)).drivers,
        driver.id = row.id ∧ driver.isAuthorizedToDrive = false := by
  unfold lockWrites Driver.update
  split
  · rename_i already
    refine ⟨rfl, rfl, rfl, row, Table.mem_of_find found, rfl, ?_⟩
    rw [← already]
    rfl
  · refine ⟨rfl, rfl, rfl, Driver.changed row (row.lockedAtInstant now.env.now) row, ?_, rfl,
      Driver.changed_locked⟩
    exact (Table.mem_update (by simp)).mpr ⟨row, Table.mem_of_find found, by simp⟩

theorem CallsE6.facts (called : CallsE6 db session driverId companyId row) {save : Sent}
    (undisturbed : Undisturbed db session.writes after.trace)
    (reads : ReadsE6 driverId companyId (session.saved save) lock now drawn loaded driver deadline
      case base) (grown : base.trace <+: after.trace) :
    driver = row ∧ case.driverId = driverId ∧ case.status = .open ∧ base.writes = session.writes ∧
      (db.after session.writes).cases.find case.id = none := by
  have whole : base.trace = session.trace ++ [save, lock, now, drawn] := by
    rw [reads.isBase]
    simp
  have inTrace : ∀ entry ∈ [save, lock, now, drawn], entry ∈ after.trace := by
    intro entry member
    apply grown.subset
    rw [whole]
    exact List.mem_append_right _ member
  have found := called.reads undisturbed.sees (inTrace lock (by simp)) reads.asked
  rw [reads.found] at found
  cases found
  have isRow := Table.key_of_find called.stored
  simp only [Driver.key_eq] at isRow
  have isCopy : driver = row := reads.isCopy.trans called.copied
  refine ⟨isCopy, ?_, ?_, ?_, ?_⟩
  · rw [reads.isCase, isCopy]
    exact isRow
  · rw [reads.isCase]
    rfl
  · rw [reads.isBase]
    simp
  · rw [reads.isCase]
    exact undisturbed.newCase drawn (inTrace drawn (by simp))

end Call

section Told

variable {createdAt : Instant} {driver : Driver} {case : EscalationCase} {alert : Sent}
variable {told : List Sent} {locked : Db}

theorem Undisturbed.ids (undisturbed : Undisturbed db session.writes after.trace)
    (order : (alert :: told).Sublist after.trace)
    (sameOutbox : locked.outbox = (db.after session.writes).outbox) :
    (told.map fun entry => entry.env.fresh).Nodup ∧
      ∀ id ∈ told.map fun entry => entry.env.fresh, locked.outbox.find id = none := by
  have drawn : (alert :: told).map (fun entry => entry.env.fresh) =
      alert.env.fresh :: told.map fun entry => entry.env.fresh := rfl
  have distinct := undisturbed.distinct.sublist (order.map fun entry => entry.env.fresh)
  rw [drawn] at distinct
  refine ⟨(List.nodup_cons.mp distinct).2, fun id member => ?_⟩
  obtain ⟨entry, inTold, rfl⟩ := List.mem_map.mp member
  rw [sameOutbox]
  exact undisturbed.newMessage entry (order.subset (List.mem_cons_of_mem _ inTold))

theorem Undisturbed.tells (undisturbed : Undisturbed db session.writes after.trace)
    (stored : ∀ recipient ∈ recipients, recipient.Stored)
    (order : (alert :: told).Sublist after.trace)
    (length : told.length = (recipients.flatMap Recipient.contacts).length)
    (sameOutbox : locked.outbox = (db.after session.writes).outbox)
    (sameAlerts : locked.alerts = (db.after session.writes).alerts) :
    Journal.Replays (tellWrites companyId triggerCheckId recipients createdAt driver case alert
        (told.map fun entry => entry.env.fresh)) locked ↔
      Tellable (db.after session.writes) triggerCheckId recipients := by
  obtain ⟨distinct, newMessage⟩ := undisturbed.ids order sameOutbox
  have newAlert : locked.alerts.find alert.env.fresh = none := by
    rw [sameAlerts]
    exact undisturbed.newAlert alert (order.subset List.mem_cons_self)
  rw [tellWrites_iff (by simpa using length) distinct newMessage newAlert stored]
  constructor
  · exact fun tellable => ⟨tellable.distinct, tellable.short, sameOutbox ▸ tellable.unused⟩
  · exact fun tellable => ⟨tellable.distinct, tellable.short, sameOutbox.symm ▸ tellable.unused⟩

theorem CallsE6.leaves (called : CallsE6 db session driverId companyId row)
    (undisturbed : Undisturbed db session.writes after.trace)
    (order : (alert :: told).Sublist after.trace)
    (length : told.length = (recipients.flatMap Recipient.contacts).length) {now : Sent}
    (own : case.driverId = driverId) (isOpen : case.status = .open)
    (newCase : (db.after session.writes).cases.find case.id = none)
    (distinct : (recipients.flatMap Recipient.contacts).Nodup) :
    LockedAndTold (db.after session.writes)
      (((db.after session.writes).after (lockWrites row now case)).after
        (tellWrites companyId triggerCheckId recipients createdAt row case alert
          (told.map fun entry => entry.env.fresh)))
      driverId companyId (recipients.flatMap Recipient.contacts) := by
  obtain ⟨sameOutbox, _, cases, driver, driverIn, isDriver, unauthorized⟩ :=
    @lockWrites_after _ row now case called.found
  obtain ⟨sameDrivers, sameCases⟩ := elsewhere_after
    (@tellWrites_elsewhere companyId triggerCheckId recipients createdAt row case alert
      (told.map fun entry => entry.env.fresh))
    ((db.after session.writes).after (lockWrites row now case))
  have isRow := Table.key_of_find called.stored
  simp only [Driver.key_eq] at isRow
  refine ⟨?_, ?_, ?_⟩
  · rw [sameDrivers]
    exact ⟨driver, driverIn, isDriver.trans isRow, unauthorized⟩
  · rw [sameCases, cases]
    refine ⟨case, Table.mem_insert.mpr (.inr ⟨rfl, newCase⟩), own, isOpen, ?_⟩
    intro other member otherOwn otherOpen
    rcases Table.mem_insert.mp member with before | ⟨same, _⟩
    · exact absurd otherOpen (called.notOpen other before otherOwn)
    · exact same
  · obtain ⟨idsDistinct, newMessage⟩ := undisturbed.ids order sameOutbox
    obtain ⟨sameIds, sameContacts, _, each⟩ := @broadcast_fields companyId triggerCheckId
      (e6Context row case.deadlineAt) createdAt (recipients.flatMap Recipient.contacts)
      (told.map fun entry => entry.env.fresh) (by simpa using length)
    rw [tellWrites]
    generalize broadcast companyId triggerCheckId (e6Context row case.deadlineAt) createdAt
      (recipients.flatMap Recipient.contacts) (told.map fun entry => entry.env.fresh) =
        messages at *
    have appended := @outbox_after_messages
      ((db.after session.writes).after (lockWrites row now case)) messages
      (sameIds.symm ▸ idsDistinct) fun message member =>
        newMessage message.id (sameIds ▸ List.mem_map_of_mem member)
    refine ⟨messages, ?_,
      fun message member => ⟨(each message member).1, (each message member).2.1⟩, ?_⟩
    · rw [Db.after_append, ← sameOutbox]
      exact appended
    · rw [sameContacts, List.Nodup.dedup distinct]

end Told

/-- **The pipeline.** Where no driver state stands in the way, it stages everything or fails,
and which of both is decided by the recipients. -/
theorem HandlesFailed.decided (called : CallsE6 db session driverId companyId row)
    (undisturbed : Undisturbed db session.writes after.trace)
    (stored : ∀ recipient ∈ recipients, recipient.Stored) {save : Sent} {last : Session}
    {outcome : Except Error E6Result}
    (handled : HandlesFailed driverId companyId triggerCheckId recipients (session.saved save)
      outcome last) (grown : last.trace <+: after.trace) :
    (∃ result, outcome = .ok result ∧
        Tellable (db.after session.writes) triggerCheckId recipients ∧
        LockedAndTold (db.after session.writes) (db.after last.writes) driverId companyId
          (recipients.flatMap Recipient.contacts)) ∨
      ∃ error, outcome = .error error ∧
        ¬ Tellable (db.after session.writes) triggerCheckId recipients := by
  have sees : ∀ entry ∈ last.trace, entry.world.db = db :=
    fun entry member => undisturbed.sees entry (grown.subset member)
  cases handled with
  | missing lock asked absent =>
      have inTrace : lock ∈ after.trace := grown.subset (by simp)
      rw [called.reads undisturbed.sees inTrace asked] at absent
      cases absent
  | undated lock now row none =>
      have dated := undisturbed.dated now (grown.subset (by simp))
      rw [none] at dated
      cases dated
  | stale lock now drawn loaded driver deadline case base _ reads refused =>
      obtain ⟨isRow, own, _, writes, newCase⟩ := called.facts undisturbed reads
        (refused.grown.trace.trans grown)
      have fails := refused.not_replays sees
      rw [writes, isRow] at fails
      exact absurd (lockWrites_replays called newCase own) fails
  | unlocked lock now drawn loaded driver deadline case base _ error reads fresh refused =>
      obtain ⟨isRow, own, _, writes, newCase⟩ := called.facts undisturbed reads
        (refused.grown.trace.trans grown)
      have fails := refused.not_replays sees
      rw [writes, isRow] at fails
      exact absurd (lockWrites_replays called newCase own) fails
  | untold lock now drawn loaded driver deadline case base middle _ alert told error reads locks
      length refused =>
      have order : ((middle.saw alert).sawAll told).trace <+: after.trace :=
        refused.grown.trace.trans grown
      obtain ⟨isRow, _, _, writes, _⟩ := called.facts undisturbed reads
        ((locks.grown.trace.trans (Grown.saw _ alert).trace).trans
          ((Grown.sawAll _ told).trace.trans order))
      obtain ⟨sameOutbox, sameAlerts, _⟩ := @lockWrites_after _ row now case called.found
      have fails := refused.not_replays sees
      rw [Session.sawAll_writes, Session.saw_writes, locks.writes, writes, Db.after_append, isRow,
        undisturbed.tells stored (order_sublist order) length sameOutbox sameAlerts] at fails
      exact .inr ⟨error, rfl, fails⟩
  | done lock now drawn loaded driver deadline case base middle _ alert told reads locks length
      tells =>
      have order : ((middle.saw alert).sawAll told).trace <+: after.trace :=
        tells.grown.trace.trans grown
      obtain ⟨isRow, own, isOpen, writes, newCase⟩ := called.facts undisturbed reads
        ((locks.grown.trace.trans (Grown.saw _ alert).trace).trans
          ((Grown.sawAll _ told).trace.trans order))
      obtain ⟨sameOutbox, sameAlerts, _⟩ := @lockWrites_after _ row now case called.found
      have replays := tells.replays sees
      rw [Session.sawAll_writes, Session.saw_writes, locks.writes, writes, Db.after_append, isRow,
        undisturbed.tells stored (order_sublist order) length sameOutbox sameAlerts] at replays
      refine .inl ⟨_, rfl, replays, ?_⟩
      rw [tells.writes, Session.sawAll_writes, Session.saw_writes, locks.writes, writes,
        Db.after_append, Db.after_append, isRow]
      exact called.leaves undisturbed (order_sublist order) length own isOpen newCase
        replays.distinct

/-- The call succeeds and does its work exactly if the recipients can be told. -/
theorem runE6_decided (called : CallsE6 db session driverId companyId row)
    (undisturbed : Undisturbed db session.writes after.trace)
    (stored : ∀ recipient ∈ recipients, recipient.Stored) {outcome : Except Error E6Result}
    (ended : postgres.Ends (runE6 driverId companyId triggerCheckId recipients) session outcome
      after) :
    ((∃ result, outcome = .ok result) ∧
        LockedAndTold (db.after session.writes) (db.after after.writes) driverId companyId
          (recipients.flatMap Recipient.contacts)) ↔
      Tellable (db.after session.writes) triggerCheckId recipients := by
  have undecided : ∀ {save : Sent} {last : Session} {error : Error},
      HandlesFailed driverId companyId triggerCheckId recipients (session.saved save)
        (.error error) last → last.trace <+: after.trace →
      ¬ Tellable (db.after session.writes) triggerCheckId recipients := by
    intro save last error handled grown
    rcases handled.decided called undisturbed stored grown with ⟨_, same, _⟩ | ⟨_, _, fails⟩
    · cases same
    · exact fails
  have failed : ∀ {error : Error}, outcome = .error error →
      ¬ Tellable (db.after session.writes) triggerCheckId recipients →
      (((∃ result, outcome = .ok result) ∧
        LockedAndTold (db.after session.writes) (db.after after.writes) driverId companyId
          (recipients.flatMap Recipient.contacts)) ↔
        Tellable (db.after session.writes) triggerCheckId recipients) := by
    intro error isError fails
    refine iff_of_false ?_ fails
    rintro ⟨⟨result, isOk⟩, _⟩
    rw [isError] at isOk
    cases isOk
  cases runE6_ends called.clean ended with
  | staged save release middle result saved handled asked =>
      rcases handled.decided called undisturbed stored (List.prefix_append _ _) with
        ⟨_, _, tellable, left⟩ | ⟨_, same, _⟩
      · exact iff_of_true ⟨⟨result, rfl⟩, left⟩ tellable
      · cases same
  | replayed save back seen middle constraint existing saved handled asked found =>
      have same : (middle.rolledBack back).connection = session.connection :=
        handled.rolledBack called.unsaved
      have view : seen.db = db.after session.writes := by
        rw [Sent.db, asked.connection, same, undisturbed.sees seen (by simp)]
        rfl
      have member := List.mem_of_find?_eq_some found
      have isOpen := List.find?_some found
      simp only [Bool.and_eq_true, decide_eq_true_eq] at isOpen
      rw [view] at member
      exact absurd isOpen.2 (called.notOpen existing member isOpen.1.2)
  | unexplained save back seen middle constraint saved handled asked found =>
      exact failed rfl (undecided handled (by simp [List.append_assoc]))
  | failed save back middle error saved handled other =>
      exact failed rfl (undecided handled (by simp))

/-- **Recipients decide.** A call that nobody disturbs, for a driver without an OPEN case,
ends; and it succeeds and leaves the driver locked, one OPEN case and one urgent message for
each contact behind exactly if nobody is named twice, every e-mail address has at most 74
characters and no key is taken. -/
theorem run_e6_stages_iff (called : CallsE6 db session driverId companyId row)
    (stored : ∀ recipient ∈ recipients, recipient.Stored) (moments : Nat → World × Env)
    (ticking : ∀ index, (moments index).1.clock < (moments index).2.now) :
    ∃ outcome after statements,
      postgres.play (runE6 driverId companyId triggerCheckId recipients) session moments =
          some (outcome, after) ∧
        after.trace = session.trace ++ statements ∧
        (Undisturbed db session.writes statements →
          ((∃ result, outcome = .ok result) ∧
              LockedAndTold (db.after session.writes) (db.after (Session.writes after)) driverId
                companyId (recipients.flatMap Recipient.contacts) ↔
            Tellable (db.after session.writes) triggerCheckId recipients)) := by
  have plays : (postgres.play (runE6 driverId companyId triggerCheckId recipients) session
      moments).isSome = true :=
    Library.Server.play_isSome fun _ _ _ _ _ => perform_alone
  obtain ⟨⟨outcome, after⟩, played⟩ := Option.isSome_iff_exists.mp plays
  have ended := Library.Server.play_ends (fun index => decide_eq_true (ticking index)) played
  have whole : session = ⟨session.memory, session.connection, session.trace ++ []⟩ := by
    rw [List.append_nil]
  rw [whole] at ended
  obtain ⟨statements, trace, ended⟩ := Library.Server.ends_untraced ended
  refine ⟨outcome, after, statements, played, trace, fun undisturbed => ?_⟩
  have calledAnew : CallsE6 db ⟨session.memory, session.connection, []⟩ driverId companyId row :=
    ⟨called.clean, called.unsaved, called.stored, called.visible, called.company, called.copied,
      called.named, called.notOpen⟩
  have decided := runE6_decided calledAnew (by exact undisturbed) stored ended
  exact decided

end Pipeline

/-! ### The fleet -/

def fleetMoments (index : Nat) : World × Env :=
  (⟨fleetWorld.db, fleetWorld.clock + index⟩, fleetEnv (index + 1))

theorem fleetMoments_ticking (index : Nat) :
    (fleetMoments index).1.clock < (fleetMoments index).2.now := by
  change (1767225600 : Int) + index < 1767225600 + (index + 1 : Nat)
  omega

def fleetSession : Session :=
  Session.opened (some (fleetId 100)) fleetWorld.clock

theorem fleetSession_callsE6 :
    CallsE6 fleetWorld.db fleetSession (fleetId 2) (fleetId 100) fleetDriver where
  clean := rfl
  unsaved := rfl
  stored := by decide +kernel
  visible := by decide +kernel
  company := rfl
  copied := rfl
  named := by decide +kernel
  notOpen case member := absurd member (fleetWorld_cases case)

def fleetRecipient : Recipient :=
  ⟨some "chef@spedition.de".toList, some "+4930123456".toList⟩

/-- A manager who shares the owner's phone number. -/
def sharedRecipient : Recipient :=
  ⟨some "dispo@spedition.de".toList, some "+4930123456".toList⟩

def fleetRunE6 (recipients : List Recipient) : Work E6Result :=
  runE6 (fleetId 2) (fleetId 100) (fleetId 900) recipients

def raised {Value : Type} : Except Error Value → Option Error
  | .ok _ => none
  | .error error => some error

/-- Ids are new and deadlines exist. -/
def Session.isOrderly (session : Session) : Bool :=
  decide (session.trace.map fun entry => entry.env.fresh).Nodup &&
    session.trace.all fun entry => (escalationDeadline entry.env.now escalationDays).isSome

theorem fleet_undisturbed {recipients : List Recipient} {outcome : Except Error E6Result}
    (played : postgres.play (fleetRunE6 recipients) fleetSession fleetMoments =
      some (outcome, after)) (orderly : Session.isOrderly after = true) :
    Undisturbed fleetWorld.db [] after.trace := by
  simp only [Session.isOrderly, Bool.and_eq_true, decide_eq_true_eq, List.all_eq_true] at orderly
  refine ⟨fun entry member => ?_, orderly.1, fun _ _ => rfl, fun _ _ => rfl, fun _ _ => rfl,
    orderly.2⟩
  rcases Library.Server.play_meets played entry member with earlier | ⟨_, index, met⟩
  · cases earlier
  · have sameWorld : entry.world = (fleetMoments index).1 := congrArg Prod.fst met
    rw [sameWorld]
    rfl

theorem fleetRecipient_stored : fleetRecipient.Stored where
  email email isEmail := by
    cases isEmail
    decide
  phone phone isPhone := by
    cases isPhone
    decide

theorem sharedRecipient_stored : sharedRecipient.Stored where
  email email isEmail := by
    cases isEmail
    decide
  phone phone isPhone := by
    cases isPhone
    decide

/-- The owner alone is told. -/
theorem run_e6_stages_iff_owner :
    ∃ outcome after,
      postgres.play (fleetRunE6 [fleetRecipient]) fleetSession fleetMoments =
          some (outcome, after) ∧
        (∃ result, outcome = .ok result) ∧
        LockedAndTold fleetWorld.db (fleetWorld.db.after (Session.writes after)) (fleetId 2)
          (fleetId 100) fleetRecipient.contacts := by
  have stored : ∀ recipient ∈ [fleetRecipient], recipient.Stored := by
    simpa using fleetRecipient_stored
  obtain ⟨outcome, after, statements, played, trace, decided⟩ :=
    @run_e6_stages_iff fleetSession fleetWorld.db (fleetId 2) (fleetId 100) (fleetId 900)
      [fleetRecipient] fleetDriver fleetSession_callsE6 stored fleetMoments fleetMoments_ticking
  have orderly : (postgres.play (fleetRunE6 [fleetRecipient]) fleetSession fleetMoments).all
      (fun played => Session.isOrderly played.2) = true := by
    decide +kernel
  have played' : postgres.play (fleetRunE6 [fleetRecipient]) fleetSession fleetMoments =
      some (outcome, after) := played
  rw [played'] at orderly
  have isTrace : after.trace = statements := trace
  have tellable : Tellable fleetWorld.db (fleetId 900) [fleetRecipient] := by
    refine ⟨by decide +kernel, ?_, fun contact inside stored member => ?_⟩
    · simp only [List.mem_singleton, forall_eq]
      intro email isEmail
      cases isEmail
      decide
    · cases member
  exact ⟨outcome, after, played', (decided (isTrace ▸ fleet_undisturbed played' orderly)).mpr
    tellable⟩

/-- A manager with the owner's phone number undoes the lockout. -/
theorem run_e6_shared_phone :
    CallsE6 fleetWorld.db fleetSession (fleetId 2) (fleetId 100) fleetDriver ∧
      (∀ recipient ∈ [fleetRecipient, sharedRecipient], recipient.Stored) ∧
      ∃ after, postgres.play (fleetRunE6 [fleetRecipient, sharedRecipient]) fleetSession
            fleetMoments = some (.error (.integrity .dedupKey), after) ∧
          Undisturbed fleetWorld.db [] after.trace ∧
          ¬ LockedAndTold fleetWorld.db (fleetWorld.db.after (Session.writes after)) (fleetId 2)
            (fleetId 100) ([fleetRecipient, sharedRecipient].flatMap Recipient.contacts) := by
  refine ⟨fleetSession_callsE6, ?_, ?_⟩
  · simpa using ⟨fleetRecipient_stored, sharedRecipient_stored⟩
  · have failed : (postgres.play (fleetRunE6 [fleetRecipient, sharedRecipient]) fleetSession
        fleetMoments).any (fun played =>
          decide (raised played.1 = some (.integrity .dedupKey)) && Session.isOrderly played.2 &&
            (Session.writes played.2).isEmpty) = true := by
      decide +kernel
    obtain ⟨⟨outcome, after⟩, played, facts⟩ := (Option.any_eq_true _ _).mp failed
    simp only [Bool.and_eq_true, decide_eq_true_eq, List.isEmpty_iff] at facts
    obtain ⟨⟨isError, orderly⟩, noWrites⟩ := facts
    have isCollision : outcome = .error (.integrity .dedupKey) := by
      cases outcome with
      | ok result => cases isError
      | error error => rw [Option.some.inj isError]
    rw [isCollision] at played
    refine ⟨after, played, fleet_undisturbed played orderly, fun lockedAndTold => ?_⟩
    obtain ⟨driver, member, _, unauthorized⟩ := lockedAndTold.locked
    rw [noWrites, Db.after_nil] at member
    have isDriver : driver ∈ [fleetDriver] := member
    rw [List.mem_singleton.mp isDriver] at unauthorized
    cases unauthorized

end Fristenwaechter
