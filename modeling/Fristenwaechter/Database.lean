import Fristenwaechter.Models
import Fristenwaechter.Library.Journal

/-!
Owns the database: the committed tables, the writes (one per kind of DML statement
the program sends), the rows and unique-index entries a write locks, and the
constraints it is checked against. An UPDATE of the mapper sets the changed columns
only; a mapped object carries the copy it was loaded with, so a write names both.

Foreign keys are not checked, because no modelled path inserts a row whose parent is
missing, but they are locked: an INSERT holds its parent rows FOR KEY SHARE, and so
excludes those who hold them FOR UPDATE. Text is taken without NUL characters, which
PostgreSQL cannot store.
-/

namespace Fristenwaechter

open Library (Table Writes)

/-- The tables. -/
structure Db where
  companies : Table Company
  accountUsers : Table AccountUser
  userSessions : Table UserSession
  invitations : Table Invitation
  drivers : Table Driver
  vehicles : Table Vehicle
  deadlines : Table Deadline
  cases : Table EscalationCase
  alerts : Table SystemAlert
  outbox : Table OutboxMessage
  checkLog : Table ComplianceCheckLog

def Db.empty : Db :=
  ⟨.empty, .empty, .empty, .empty, .empty, .empty, .empty, .empty, .empty, .empty, .empty⟩

/-- What can be locked: a row of a table, or the entry of a unique index. -/
inductive Ref where
  | company (id : Uuid)
  | accountUser (id : Uuid)
  | userSession (id : Uuid)
  | invitation (id : Uuid)
  | driver (id : Uuid)
  | vehicle (id : Uuid)
  | deadline (id : Uuid)
  | case (id : Uuid)
  | alert (id : Uuid)
  | outbox (id : Uuid)
  | log (id : Uuid)
  /-- `uq_escalation_open_per_driver`. -/
  | openCase (driverId : Uuid)
  /-- The unique index on `outbox_message.dedup_key`. -/
  | dedupKey (key : Str)
  /-- The unique index on `compliance_check_log.entry_hash`. -/
  | entryHash (hash : Str)
deriving DecidableEq

/-- The row of a subject. -/
def Ref.subject : Subject → Ref
  | .driver id => .driver id
  | .vehicle id => .vehicle id

/-- The change of one escalation case. No code path sets a status back to OPEN. -/
structure CaseChange where
  loaded : EscalationCase
  current : EscalationCase
  stays : current.status = .open → loaded.status = .open

inductive Write where
  | insertDriver (row : Driver)
  | updateDriver (loaded current : Driver)
  | insertVehicle (row : Vehicle)
  | insertDeadline (row : Deadline)
  | updateDeadline (loaded current : Deadline)
  | insertCase (row : EscalationCase)
  | updateCase (change : CaseChange)
  | insertAlert (row : SystemAlert)
  | insertOutbox (row : OutboxMessage)
  | updateOutbox (loaded current : OutboxMessage)
  | deleteOutbox (ids : List Uuid)
  | insertLog (row : ComplianceCheckLog)
  | updateUser (loaded current : AccountUser)
  | updateCompany (loaded current : Company)
  | revokeSessions (ids : List Uuid) (now : Instant)
  | acceptInvitations (ids : List Uuid) (now : Instant)

/-- The stored value of a column after an UPDATE that changes it from `loaded` to
`current`; an unchanged column is not part of the statement. -/
def column {Value : Type} [DecidableEq Value] (loaded current stored : Value) : Value :=
  if current = loaded then stored else current

@[simp] theorem column_stored {Value : Type} [DecidableEq Value] (loaded current : Value) :
    column loaded current loaded = current := by
  unfold column
  split
  · exact ‹current = loaded›.symm
  · rfl

@[simp] theorem column_current {Value : Type} [DecidableEq Value] (loaded current : Value) :
    column loaded current current = current := by
  unfold column
  split <;> rfl

/-- `UPDATE driver SET …, version_id = <loaded + 1>`. -/
def Driver.changed (loaded current stored : Driver) : Driver :=
  { stored with
    firstName := column loaded.firstName current.firstName stored.firstName
    lastName := column loaded.lastName current.lastName stored.lastName
    anonymizedAt := column loaded.anonymizedAt current.anonymizedAt stored.anonymizedAt
    isAuthorizedToDrive :=
      column loaded.isAuthorizedToDrive current.isAuthorizedToDrive stored.isAuthorizedToDrive
    lockReason := column loaded.lockReason current.lockReason stored.lockReason
    lockedAt := column loaded.lockedAt current.lockedAt stored.lockedAt
    versionId := loaded.versionId + 1 }

/-- `UPDATE deadline SET …`. -/
def Deadline.changed (loaded current stored : Deadline) : Deadline :=
  { stored with
    status := column loaded.status current.status stored.status
    completedOn := column loaded.completedOn current.completedOn stored.completedOn }

/-- `UPDATE escalation_case SET …`. -/
def EscalationCase.changed (loaded current stored : EscalationCase) : EscalationCase :=
  { stored with
    status := column loaded.status current.status stored.status
    resolvedAt := column loaded.resolvedAt current.resolvedAt stored.resolvedAt
    resolvedById := column loaded.resolvedById current.resolvedById stored.resolvedById
    lastNagOn := column loaded.lastNagOn current.lastNagOn stored.lastNagOn }

/-- `UPDATE outbox_message SET …`: the columns of the delivery state machine. -/
def OutboxMessage.changed (loaded current stored : OutboxMessage) : OutboxMessage :=
  { stored with
    attempts := column loaded.attempts current.attempts stored.attempts
    nextAttemptAt := column loaded.nextAttemptAt current.nextAttemptAt stored.nextAttemptAt
    sentAt := column loaded.sentAt current.sentAt stored.sentAt
    deadLetteredAt := column loaded.deadLetteredAt current.deadLetteredAt stored.deadLetteredAt
    lastError := column loaded.lastError current.lastError stored.lastError
    providerMessageId :=
      column loaded.providerMessageId current.providerMessageId stored.providerMessageId }

/-- `UPDATE account_user SET …`. -/
def AccountUser.changed (loaded current stored : AccountUser) : AccountUser :=
  { stored with
    email := column loaded.email current.email stored.email
    phoneE164 := column loaded.phoneE164 current.phoneE164 stored.phoneE164
    isActive := column loaded.isActive current.isActive stored.isActive
    passwordHash := column loaded.passwordHash current.passwordHash stored.passwordHash }

/-- `UPDATE company SET …`. -/
def Company.changed (loaded current stored : Company) : Company :=
  { stored with
    name := column loaded.name current.name stored.name
    deletedAt := column loaded.deletedAt current.deletedAt stored.deletedAt }

@[simp] theorem Driver.changed_id (loaded current stored : Driver) :
    (Driver.changed loaded current stored).id = stored.id :=
  rfl

@[simp] theorem Deadline.changed_id (loaded current stored : Deadline) :
    (Deadline.changed loaded current stored).id = stored.id :=
  rfl

@[simp] theorem EscalationCase.changed_id (loaded current stored : EscalationCase) :
    (EscalationCase.changed loaded current stored).id = stored.id :=
  rfl

@[simp] theorem OutboxMessage.changed_id (loaded current stored : OutboxMessage) :
    (OutboxMessage.changed loaded current stored).id = stored.id :=
  rfl

@[simp] theorem AccountUser.changed_id (loaded current stored : AccountUser) :
    (AccountUser.changed loaded current stored).id = stored.id :=
  rfl

@[simp] theorem Company.changed_id (loaded current stored : Company) :
    (Company.changed loaded current stored).id = stored.id :=
  rfl

namespace Write

def apply : Write → Db → Db
  | insertDriver row, db => { db with drivers := db.drivers.insert row }
  | updateDriver loaded current, db =>
      { db with drivers := db.drivers.update loaded.id (Driver.changed loaded current) }
  | insertVehicle row, db => { db with vehicles := db.vehicles.insert row }
  | insertDeadline row, db => { db with deadlines := db.deadlines.insert row }
  | updateDeadline loaded current, db =>
      { db with deadlines := db.deadlines.update loaded.id (Deadline.changed loaded current) }
  | insertCase row, db => { db with cases := db.cases.insert row }
  | updateCase change, db =>
      { db with
        cases := db.cases.update change.loaded.id
          (EscalationCase.changed change.loaded change.current) }
  | insertAlert row, db => { db with alerts := db.alerts.insert row }
  | insertOutbox row, db => { db with outbox := db.outbox.insert row }
  | updateOutbox loaded current, db =>
      { db with outbox := db.outbox.update loaded.id (OutboxMessage.changed loaded current) }
  | deleteOutbox ids, db => { db with outbox := db.outbox.remove ids }
  | insertLog row, db => { db with checkLog := db.checkLog.insert row }
  | updateUser loaded current, db =>
      { db with
        accountUsers := db.accountUsers.update loaded.id (AccountUser.changed loaded current) }
  | updateCompany loaded current, db =>
      { db with companies := db.companies.update loaded.id (Company.changed loaded current) }
  | revokeSessions ids now, db =>
      { db with
        userSessions := ids.foldl (fun table id =>
          table.update id fun row => { row with revokedAt := some now }) db.userSessions }
  | acceptInvitations ids now, db =>
      { db with
        invitations := ids.foldl (fun table id =>
          table.update id fun row => { row with acceptedAt := some now }) db.invitations }

/-- The rows and index entries a write locks. -/
def footprint : Write → List Ref
  | insertDriver row => [.driver row.id]
  | updateDriver loaded _ => [.driver loaded.id]
  | insertVehicle row => [.vehicle row.id]
  | insertDeadline row => [.deadline row.id]
  | updateDeadline loaded _ => [.deadline loaded.id]
  | insertCase row => [.case row.id, .openCase row.driverId]
  | updateCase change => [.case change.loaded.id]
  | insertAlert row => [.alert row.id]
  | insertOutbox row => [.outbox row.id, .dedupKey row.dedupKey]
  | updateOutbox loaded _ => [.outbox loaded.id]
  | deleteOutbox ids => ids.map .outbox
  | insertLog row => [.log row.id, .entryHash row.entryHash]
  | updateUser loaded _ => [.accountUser loaded.id]
  | updateCompany loaded _ => [.company loaded.id]
  | revokeSessions ids _ => ids.map .userSession
  | acceptInvitations ids _ => ids.map .invitation

/-- The parent rows that an INSERT, or an UPDATE of a foreign key, holds FOR KEY SHARE. -/
def parents : Write → List Ref
  | insertDriver row => [.company row.companyId]
  | insertVehicle row => [.company row.companyId]
  | insertDeadline row => [.company row.companyId, .subject row.subject]
  | insertCase row => [.company row.companyId, .driver row.driverId]
  | updateCase change =>
      if change.current.resolvedById = change.loaded.resolvedById then []
      else change.current.resolvedById.toList.map .accountUser
  | insertAlert row =>
      .company row.companyId ::
        (row.driverId.toList.map .driver ++ row.escalationCaseId.toList.map .case)
  | insertOutbox row => [.company row.companyId]
  | insertLog row =>
      .company row.companyId ::
        (row.driverId.toList.map .driver ++ row.performedById.toList.map .accountUser)
  | _ => []

/-- The rows that an UPDATE locks FOR UPDATE, because it changes a column with a unique
index: the email of an account. Any other UPDATE goes with FOR KEY SHARE. -/
def rekeys : Write → List Ref
  | updateUser loaded current =>
      if current.email = loaded.email then [] else [.accountUser loaded.id]
  | _ => []

end Write

/-! ### Constraints -/

/-- A violated integrity constraint. -/
inductive Constraint where
  | primaryKey
  | openCasePerDriver
  | dedupKey
  | entryHash
deriving DecidableEq

/-- The exceptions of the modelled functions. -/
inductive Error where
  /-- `sqlalchemy.exc.IntegrityError`. -/
  | integrity (constraint : Constraint)
  /-- A value that does not fit its column; not an `IntegrityError`. -/
  | data
  /-- `sqlalchemy.orm.exc.StaleDataError`. -/
  | staleData
  | driverNotFound (driverId : Uuid)
  | staleDriverState (driverId : Uuid)
  | deadlineNotFound (text : Str)
  | forbidden
  | value
  | overflow
  /-- A subscript out of range. -/
  | index
  /-- An exception of a notifier that is not a `NotifierError`. -/
  | notifier
deriving DecidableEq

/-- `VARCHAR(width)`. -/
def fits (width : Nat) (text : Str) : Bool :=
  text.length ≤ width

def fitsOption (width : Nat) : Option Str → Bool
  | none => true
  | some text => fits width text

/-- `SMALLINT`. -/
def fitsSmallInt (n : Int) : Bool :=
  -32768 ≤ n ∧ n ≤ 32767

def require (condition : Bool) (error : Error) : Except Error Unit :=
  if condition then .ok () else .error error

@[simp] theorem require_eq_ok {condition : Bool} {error : Error} :
    require condition error = .ok () ↔ condition = true := by
  unfold require
  split <;> simp_all

@[simp] theorem require_then_eq_ok {condition : Bool} {error : Error}
    {rest : Except Error Unit} :
    (require condition error >>= fun _ => rest) = .ok () ↔
      condition = true ∧ rest = .ok () := by
  unfold require
  split <;> simp_all [Bind.bind, Except.bind]

/-- `INSERT` of a new primary key. -/
def requireNew {Row : Type} [Library.Keyed Row Uuid] (table : Table Row) (row : Row) :
    Except Error Unit :=
  require (table.find (Library.Keyed.key row)).isNone (.integrity .primaryKey)

/-- What the database and the mapper check when a write is executed. Column widths
come before unique indexes. -/
def Write.check (db : Db) : Write → Except Error Unit
  | insertDriver row => do
      require (fits 80 row.firstName && fits 80 row.lastName) .data
      requireNew db.drivers row
  | updateDriver loaded current => do
      require (fits 80 current.firstName && fits 80 current.lastName) .data
      require ((db.drivers.find loaded.id).any fun stored =>
        stored.versionId = loaded.versionId) .staleData
  | insertVehicle row => do
      require (fits 15 row.kennzeichen && fitsOption 40 row.make && fitsOption 40 row.model &&
        fitsSmallInt row.huIntervalMonths) .data
      requireNew db.vehicles row
  | insertDeadline row => requireNew db.deadlines row
  | updateDeadline loaded _ => require (db.deadlines.find loaded.id).isSome .staleData
  | insertCase row => do
      requireNew db.cases row
      require (db.cases.rows.all fun stored =>
        ¬ (stored.driverId = row.driverId ∧ stored.status = .open))
        (.integrity .openCasePerDriver)
  | updateCase change => require (db.cases.find change.loaded.id).isSome .staleData
  | insertAlert row => do
      require (fits 40 row.code) .data
      requireNew db.alerts row
  | insertOutbox row => do
      require (fits 254 row.recipient && fits 40 row.template && fits 120 row.dedupKey) .data
      requireNew db.outbox row
      require (db.outbox.rows.all fun stored => stored.dedupKey ≠ row.dedupKey)
        (.integrity .dedupKey)
  | updateOutbox loaded current => do
      require (fitsOption 100 current.providerMessageId) .data
      require (db.outbox.find loaded.id).isSome .staleData
  | deleteOutbox _ => .ok ()
  | insertLog row => do
      require (fits 10 row.kind && fits 20 row.result && fitsOption 20 row.method) .data
      requireNew db.checkLog row
      require (db.checkLog.rows.all fun stored => stored.entryHash ≠ row.entryHash)
        (.integrity .entryHash)
  | updateUser loaded current => do
      require (fits 254 current.email) .data
      require (db.accountUsers.find loaded.id).isSome .staleData
  | updateCompany loaded current => do
      require (fits 200 current.name) .data
      require (db.companies.find loaded.id).isSome .staleData
  | revokeSessions _ _ => .ok ()
  | acceptInvitations _ _ => .ok ()

instance : Writes Db Write Ref where
  apply := Write.apply
  footprint := Write.footprint
  Valid write db := write.check db = .ok ()

/-- An INSERT into a unique index also waits for a transaction that is taking the
conflicting entry out of it. -/
def Write.waitsFor (db : Db) (other : Write) : Write → Bool
  | insertCase row =>
      match other with
      | updateCase change =>
          change.loaded.driverId = row.driverId ∧ change.current.status ≠ change.loaded.status
      | _ => false
  | insertOutbox row =>
      match other with
      | deleteOutbox ids =>
          db.outbox.rows.any fun stored => stored.id ∈ ids ∧ stored.dedupKey = row.dedupKey
      | _ => false
  | _ => false

end Fristenwaechter
