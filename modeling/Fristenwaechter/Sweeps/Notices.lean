import Fristenwaechter.Sweeps.Alone

/-!
Owns what is due in a sweep, read off the rows alone, and that a sweep which nobody disturbs
commits exactly that, or nothing if a key that is due is too long.
-/

namespace Fristenwaechter

open Library (Served Table)
open Library.Program (forEach)

variable {session after : Session} {db : Db}

/-! ### Notices -/

/-- What a sweep tells a company. -/
structure Bulletin where
  companyId : Uuid
  occasion : Occasion
  payload : List (Str × Json)
  priority : Nat

theorem Occasion.template_fits (occasion : Occasion) : fits 40 occasion.template = true := by
  cases occasion <;> rfl

namespace Bulletin

variable (bulletin : Bulletin)

def message (id : Uuid) (createdAt : Instant) (contact : OutboxChannel × Str) : OutboxMessage :=
  .staged id createdAt bulletin.companyId contact.1 contact.2 bulletin.occasion.template
    bulletin.payload bulletin.priority (bulletin.occasion.key contact)

def enqueue (recipients : List Recipient) : Work Unit :=
  enqueueForAll bulletin.companyId recipients bulletin.occasion.template bulletin.payload
    bulletin.priority bulletin.occasion.event

/-- A message of the bulletin to one of the contacts. -/
def Sends (db : Db) (createdAt : Instant) (write : Write) : Prop :=
  ∃ id, ∃ contact ∈ db.contacts bulletin.companyId,
    write = .insertOutbox (bulletin.message id createdAt contact)

/-- Every contact has the bulletin's key. -/
def Queued (db : Db) (session : Session) : Prop :=
  ∀ contact ∈ db.contacts bulletin.companyId,
    session.Queues db (bulletin.occasion.key contact)

end Bulletin

/-- Every account fits its columns. -/
def Db.Addressed (db : Db) : Prop :=
  ∀ user ∈ db.accountUsers, user.recipient.Stored

theorem Db.Addressed.fits (addressed : db.Addressed) {companyId : Uuid} :
    ∀ contact ∈ db.contacts companyId, fits 254 contact.2 = true := by
  intro contact member
  obtain ⟨recipient, inList, isContact⟩ := List.mem_flatMap.mp member
  obtain ⟨user, inDb, rfl⟩ := List.mem_map.mp inList
  have stored := addressed user (List.mem_of_mem_filter inDb)
  obtain ⟨_, ⟨_, isEmail⟩ | ⟨_, isPhone⟩⟩ := mem_contacts.mp isContact
  · exact decide_eq_true (stored.email _ isEmail)
  · have length := stored.phone _ isPhone
    exact decide_eq_true (by omega)

theorem Bulletin.through (bulletin : Bulletin) (addressed : db.Addressed) {startedAt : Instant} :
    Through db startedAt (bulletin.Sends db startedAt) (bulletin.Queued db)
      (bulletin.enqueue (db.recipients bulletin.companyId)) := by
  have each : ∀ contact ∈ db.contacts bulletin.companyId, Through db startedAt
      (fun write => ∃ id, write = .insertOutbox (bulletin.message id startedAt contact))
      (fun session => session.Queues db (bulletin.occasion.key contact))
      (do
        let _ ← enqueueUnique bulletin.companyId contact.1 contact.2 bulletin.occasion.template
          bulletin.payload bulletin.priority (contactKey bulletin.occasion.event contact)) := by
    intro contact member session outcome after solo began ended quiet
    rw [← bulletin.occasion.key_eq] at ended
    have named := bulletin.occasion.template_fits
    rcases ends_then.mp ended with ⟨added, last, enqueued, rfl, rfl⟩ | ⟨error, rfl, enqueued⟩
    · rcases solo.enqueueUnique (addressed.fits contact member) named enqueued quiet with
        ⟨_, _, still⟩ | ⟨⟨_, same⟩, _⟩
      swap
      · cases same
      obtain ⟨adds, queues⟩ := enqueueUnique_adds enqueued
      rw [began] at adds
      exact .inl ⟨rfl, still, adds, queues db quiet.sees⟩
    · rcases solo.enqueueUnique (addressed.fits contact member) named enqueued quiet with
        ⟨_, same, _⟩ | ⟨_, jams⟩
      · cases same
      · exact .inr ⟨⟨error, rfl⟩, .inl jams⟩
  intro session outcome after solo began ended quiet
  rcases through_forEach each (fun contact allowed _ _ adds queues => queues.later adds) solo began
      ended quiet with ⟨rfl, still, adds, queued⟩ | ⟨failed, jams | ⟨write, may, long⟩⟩
  · refine .inl ⟨rfl, still, adds.mono ?_, queued⟩
    rintro write ⟨contact, member, id, rfl⟩
    exact ⟨id, contact, member, rfl⟩
  · exact .inr ⟨failed, .inl jams⟩
  · obtain ⟨contact, member, id, rfl⟩ := may
    exact .inr ⟨failed, .inr ⟨_, ⟨id, contact, member, rfl⟩, long⟩⟩

/-! ### Escalations -/

/-- What a sweep does about an OPEN case. -/
def EscalationCase.notice (case : EscalationCase) (now : Instant) (today : Date)
    (driver : Option Driver) : Option (CaseChange × Bulletin) :=
  if case.deadlineAt < now then
    some (case.breach, ⟨case.companyId, .breached case.id, case.payload driver, 0⟩)
  else if case.lastNagOn ≠ some today then
    some (case.nagged today, ⟨case.companyId, .nagged case.id today, case.payload driver, 50⟩)
  else none

/-- The notice about a case with the driver that is stored. -/
def Db.escalation (db : Db) (now : Instant) (today : Date) (case : EscalationCase) :
    Option (CaseChange × Bulletin) :=
  case.notice now today (db.drivers.find case.driverId)

theorem Session.Rests.adds (rests : session.Rests after) (solo : session.Solo db)
    (still : after.Solo db) (allowed : Write → Prop) : session.Adds allowed after where
  trace := rests.trace
  tenant := still.tenant.trans solo.tenant.symm
  startedAt := rests.startedAt
  kept _ member := rests.made ▸ member
  added _ member := .inl (rests.made ▸ member)

/-- The writes of a sweep about one case. -/
def EscalationCase.Tells (case : EscalationCase) (db : Db) (now : Instant) (today : Date)
    (createdAt : Instant) (write : Write) : Prop :=
  ∃ change bulletin, db.escalation now today case = some (change, bulletin) ∧
    (write = .updateCase change ∨ bulletin.Sends db createdAt write)

/-- The case is changed and its contacts have the notice's key. -/
def EscalationCase.Told (case : EscalationCase) (db : Db) (now : Instant) (today : Date)
    (session : Session) : Prop :=
  ∀ change bulletin, db.escalation now today case = some (change, bulletin) →
    .updateCase change ∈ session.made ∧ bulletin.Queued db session

theorem EscalationCase.Told.later {case : EscalationCase} {now : Instant} {today : Date}
    {allowed : Write → Prop} (adds : session.Adds allowed after)
    (told : case.Told db now today session) : case.Told db now today after :=
  fun change bulletin due => ⟨adds.kept _ (told change bulletin due).1, fun contact member =>
    ((told change bulletin due).2 contact member).later adds⟩

theorem EscalationCase.notice_loaded {case : EscalationCase} {now : Instant} {today : Date}
    {driver : Option Driver} {change : CaseChange} {bulletin : Bulletin}
    (due : case.notice now today driver = some (change, bulletin)) :
    change.loaded = case ∧ bulletin.companyId = case.companyId := by
  unfold EscalationCase.notice at due
  split at due
  · cases due
    exact ⟨rfl, rfl⟩
  · split at due
    · cases due
      exact ⟨rfl, rfl⟩
    · cases due

/-- The names of a deadline's subject as it is stored. -/
def Db.subject (db : Db) (deadline : Deadline) : List (Str × Json) :=
  match deadline.subject with
  | .driver driverId =>
      [("subject_name".toList, .str ((db.drivers.find driverId).elim ['—'] Driver.fullName)),
        ("deep_link".toList, .str ("/drivers/".toList ++ driverId.text ++ "/history".toList))]
  | .vehicle vehicleId =>
      [("subject_name".toList,
          .str ((db.vehicles.find vehicleId).elim ['—'] Vehicle.kennzeichen)),
        ("deep_link".toList, .str ("/vehicles/".toList ++ vehicleId.text ++ "/history".toList))]

/-- What a sweep does about an OPEN deadline. -/
def Deadline.notice (deadline : Deadline) (today : Date) (subject : List (Str × Json)) :
    Option Bulletin :=
  match notch : reminderNotch deadline.dueOn today with
  | none => none
  | some (token, display) =>
      some ⟨deadline.companyId, .reminded deadline.id token ⟨_, _, display, notch⟩,
        deadline.payload display subject, 100⟩

/-- The notice about a deadline with the subject that is stored. -/
def Db.reminder (db : Db) (today : Date) (deadline : Deadline) : Option Bulletin :=
  deadline.notice today (db.subject deadline)

theorem Session.Solo.subjectContext (solo : session.Solo db) {deadline : Deadline}
    {outcome : Except Error (List (Str × Json))}
    (ended : postgres.Ends (Fristenwaechter.subjectContext deadline) session outcome after)
    (sees : ∀ entry ∈ after.trace, entry.world.db = db) :
    (outcome = .ok (db.subject deadline) ∧ after.Solo db ∧ session.Rests after) ∨
      (∃ error, outcome = .error error) ∧ session.Jams := by
  unfold Fristenwaechter.subjectContext at ended
  unfold Db.subject
  cases isSubject : deadline.subject with
  | driver driverId =>
      rw [isSubject] at ended
      rcases ends_then.mp ended with ⟨driver, last, loads, rfl, rfl⟩ | ⟨error, rfl, loads⟩
      · rcases solo.getDriver loads sees with ⟨found, still, rests⟩ | ⟨⟨_, same⟩, _⟩
        · cases found
          exact .inl ⟨rfl, still, rests⟩
        · cases same
      · rcases solo.getDriver loads sees with ⟨same, _⟩ | ⟨_, jams⟩
        · cases same
        · exact .inr ⟨⟨error, rfl⟩, jams⟩
  | vehicle vehicleId =>
      rw [isSubject] at ended
      rcases ends_then.mp ended with ⟨vehicle, last, loads, rfl, rfl⟩ | ⟨error, rfl, loads⟩
      · rcases solo.getVehicle loads sees with ⟨found, still, rests⟩ | ⟨⟨_, same⟩, _⟩
        · cases found
          exact .inl ⟨rfl, still, rests⟩
        · cases same
      · rcases solo.getVehicle loads sees with ⟨same, _⟩ | ⟨_, jams⟩
        · cases same
        · exact .inr ⟨⟨error, rfl⟩, jams⟩

/-- The writes of a sweep about one deadline. -/
def Deadline.Tells (deadline : Deadline) (db : Db) (today : Date) (createdAt : Instant)
    (write : Write) : Prop :=
  ∃ bulletin, db.reminder today deadline = some bulletin ∧ bulletin.Sends db createdAt write

/-- The contacts of the deadline have the notice's key. -/
def Deadline.Told (deadline : Deadline) (db : Db) (today : Date) (session : Session) : Prop :=
  ∀ bulletin, db.reminder today deadline = some bulletin → bulletin.Queued db session

theorem Deadline.Told.later {deadline : Deadline} {today : Date} {allowed : Write → Prop}
    (adds : session.Adds allowed after) (told : deadline.Told db today session) :
    deadline.Told db today after :=
  fun bulletin due contact member => (told bulletin due contact member).later adds

/-- When a sweep runs: the instant it compares with, its day, and its transaction's start. -/
structure Moment where
  now : Instant
  today : Date
  startedAt : Instant

/-- The cases a sweep changes. -/
inductive Db.Changes (db : Db) (moment : Moment) : Request → CaseChange → Prop
  | escalation {case : EscalationCase} {change : CaseChange} {bulletin : Bulletin}
      (stored : case ∈ db.cases) (isOpen : case.status = .open)
      (due : db.escalation moment.now moment.today case = some (change, bulletin)) :
      Changes db moment .sweepEscalations change

/-- The notices that are due in a sweep. -/
inductive Db.Due (db : Db) (moment : Moment) : Request → Bulletin → Prop
  | escalation {case : EscalationCase} {change : CaseChange} {bulletin : Bulletin}
      (stored : case ∈ db.cases) (isOpen : case.status = .open)
      (due : db.escalation moment.now moment.today case = some (change, bulletin)) :
      Due db moment .sweepEscalations bulletin
  | reminder {deadline : Deadline} {bulletin : Bulletin} (stored : deadline ∈ db.deadlines)
      (isOpen : deadline.status = .open) (due : db.reminder moment.today deadline = some bulletin) :
      Due db moment .sendReminders bulletin

/-- A notice that is due cannot be enqueued for one of its contacts: the key is too long. -/
def Db.Jammed (db : Db) (moment : Moment) (request : Request) : Prop :=
  ∃ bulletin, db.Due moment request bulletin ∧ ∃ contact ∈ db.contacts bulletin.companyId,
    fits 120 (bulletin.occasion.key contact) = false

/-- What a committed sweep has written. -/
structure Swept (db : Db) (moment : Moment) (request : Request) (writes : List Write) : Prop where
  only : ∀ write ∈ writes, (∃ change, db.Changes moment request change ∧
      write = .updateCase change) ∨
    ∃ bulletin, db.Due moment request bulletin ∧ bulletin.Sends db moment.startedAt write
  changes : ∀ change, db.Changes moment request change → .updateCase change ∈ writes
  queued : ∀ bulletin, db.Due moment request bulletin →
    ∀ contact ∈ db.contacts bulletin.companyId, ∃ row,
      row.dedupKey = bulletin.occasion.key contact ∧
        (row ∈ db.outbox ∨ .insertOutbox row ∈ writes)

section Served

variable {sha256 : Str → Str} {validateKennzeichen : Str → Option Str}

/-- The OPEN deadlines a session can see. -/
def Sent.openDeadlines (entry : Sent) : List Deadline :=
  entry.db.deadlines.rows.filter fun row =>
    entry.connection.sees row.companyId && row.status = .open

end Served

end Fristenwaechter
