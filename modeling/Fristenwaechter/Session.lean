import Fristenwaechter.Locks
import Fristenwaechter.Library.Engine

/-!
Owns one database session: the SQLAlchemy side (identity map and unit of work), the
PostgreSQL side (tenant, start time, journal, savepoint) and the statements that go
between them under READ COMMITTED.

- Every statement sees the database committed at that moment under the session's
  own uncommitted writes, restricted to the tenant pinned by row-level security.
- An instance that the identity map already holds is returned as it was loaded,
  also by `SELECT … FOR UPDATE`. (Rows that no path loads twice, and the accounts, which
  only change when they stop being notified, are read without it.)
- A locking SELECT, an UPDATE, a DELETE and an INSERT into a unique index wait while
  another open transaction holds what they need; `SKIP LOCKED` passes over it. FOR UPDATE
  and the FOR KEY SHARE of a foreign key wait for each other. (Nobody holds a case or a
  message FOR KEY SHARE alone, so `SKIP LOCKED` need not look for it.)
- `created_at` is the start of the transaction.

The wall clock strictly advances with every statement. A `LIMIT 1` without an order
may return any matching row; the environment picks it. No modelled path reads an
instance again after a rollback to its savepoint.
-/

namespace Fristenwaechter

open Library (Table Journal Writes Action)

/-- The committed database and the wall clock. -/
structure World where
  db : Db
  clock : Instant

/-- The outcome of one `notifier.send`: the provider's id, a `NotifierError`, or
another exception. -/
inductive Delivery where
  | delivered (messageId : Str)
  | refused (error : Str)
  | crashed

/-- What the environment chooses for one statement. -/
structure Env where
  now : Instant
  fresh : Uuid
  pick : Nat
  delivery : Delivery

/-- The ORM side of a session: loaded instances and changes that are not flushed. -/
structure Memory where
  drivers : List Driver
  deadlines : List Deadline
  vehicles : List Vehicle
  companies : List Company
  pending : List Write

def Memory.empty : Memory :=
  ⟨[], [], [], [], []⟩

/-- The server side of a session; `tenant` is `none` for the role that bypasses
row-level security. -/
structure Connection where
  tenant : Option Uuid
  startedAt : Instant
  journal : Journal World Write Ref
  savepoint : Option Nat

inductive Statement where
  /-- The `BEGIN` of a session whose function reads the clock first. -/
  | begin
  /-- `now_berlin()`. -/
  | now
  /-- `gen_random_uuid()` and `now()` for the row of the next INSERT. -/
  | serverDefaults
  /-- `uuid.uuid4()`. -/
  | uuid4
  /-- `session.get(Driver, id)` of a driver that is not loaded yet. -/
  | getDriver (id : Uuid)
  /-- `select(Driver)…with_for_update()`, by id and possibly by company. -/
  | driverForUpdate (id : Uuid) (companyId : Option Uuid)
  /-- `session.get(Vehicle, id)` of a vehicle that is not loaded yet. -/
  | getVehicle (id : Uuid)
  /-- `select(Vehicle)…with_for_update()`. -/
  | vehicleForUpdate (id : Uuid)
  /-- `session.get(Company, id)` of a company that is not loaded yet. -/
  | getCompany (id : Uuid)
  /-- `select(Deadline)…with_for_update()`. -/
  | deadlineForUpdate (id companyId : Uuid)
  /-- The OPEN deadline of a subject and kind, `LIMIT 1`. -/
  | openDeadline (subject : Subject) (kind : DeadlineKind)
  /-- All OPEN deadlines. -/
  | openDeadlines
  /-- The OPEN case of a driver. -/
  | openCase (driverId : Uuid)
  /-- All OPEN cases `FOR UPDATE SKIP LOCKED`. -/
  | openCasesForUpdate
  /-- `_latest_hash_for_driver` and `_latest_hash_for_vehicle`. -/
  | latestHash (subject : Subject)
  /-- The active OWNER and MANAGER accounts of a company. -/
  | notifiedUsers (companyId : Uuid)
  /-- Whether a dedup key is taken. -/
  | outboxKey (key : Str)
  /-- The due outbox rows `FOR UPDATE SKIP LOCKED`, at most `limit`. -/
  | dueOutbox (now : Instant) (limit : Nat)
  /-- The drivers with an `employment_end` that are not anonymized. -/
  | leavers
  /-- The companies whose deletion was requested before `threshold`. -/
  | companiesToDelete (threshold : Instant)
  | companyUsers (companyId : Uuid)
  | companyDrivers (companyId : Uuid)
  /-- One flushed INSERT or UPDATE. -/
  | execute (write : Write)
  /-- `DELETE FROM outbox_message WHERE created_at < cutoff`. -/
  | deleteOutboxBefore (cutoff : Instant)
  /-- `DELETE FROM outbox_message WHERE company_id = …`. -/
  | deleteOutboxOf (companyId : Uuid)
  /-- `UPDATE user_session SET revoked_at` where it is not set. -/
  | revokeSessionsOf (companyId : Uuid) (now : Instant)
  /-- `UPDATE invitation SET accepted_at` where it is not set. -/
  | acceptInvitationsOf (companyId : Uuid) (now : Instant)
  | savepoint
  | rollbackTo
  | release
  /-- `notifier.send`; the only statement that leaves the database. -/
  | deliver (message : OutboxMessage)

def Answer : Statement → Type
  | .begin => Unit
  | .now => Instant
  | .serverDefaults => Uuid × Instant
  | .uuid4 => Uuid
  | .getDriver _ => Option Driver
  | .driverForUpdate _ _ => Option Driver
  | .getVehicle _ => Option Vehicle
  | .vehicleForUpdate _ => Option Vehicle
  | .getCompany _ => Option Company
  | .deadlineForUpdate _ _ => Option Deadline
  | .openDeadline _ _ => Option Deadline
  | .openDeadlines => List Deadline
  | .openCase _ => Option EscalationCase
  | .openCasesForUpdate => List EscalationCase
  | .latestHash _ => Option Str
  | .notifiedUsers _ => List AccountUser
  | .outboxKey _ => Bool
  | .dueOutbox _ _ => List OutboxMessage
  | .leavers => List Driver
  | .companiesToDelete _ => List Company
  | .companyUsers _ => List AccountUser
  | .companyDrivers _ => List Driver
  | .execute _ => Unit
  | .deleteOutboxBefore _ => Nat
  | .deleteOutboxOf _ => Nat
  | .revokeSessionsOf _ _ => Unit
  | .acceptInvitationsOf _ _ => Unit
  | .savepoint => Unit
  | .rollbackTo => Unit
  | .release => Unit
  | .deliver _ => Except Str Str

namespace Memory

/-- The instance a loaded row is represented by: a copy already in the session wins. -/
def instanceOf {Row : Type} [Library.Keyed Row Uuid] (copies : List Row) (row : Row) : Row :=
  (copies.find? fun copy => Library.Keyed.key copy = Library.Keyed.key row).getD row

/-- The copies after a row has been loaded. -/
def loaded {Row : Type} [Library.Keyed Row Uuid] (copies : List Row) (row : Row) : List Row :=
  if (copies.find? fun copy => Library.Keyed.key copy = Library.Keyed.key row).isSome then copies
  else row :: copies

def loadDriver (memory : Memory) (row : Driver) : Memory :=
  { memory with drivers := loaded memory.drivers row }

def loadDeadline (memory : Memory) (row : Deadline) : Memory :=
  { memory with deadlines := loaded memory.deadlines row }

def loadVehicle (memory : Memory) (row : Vehicle) : Memory :=
  { memory with vehicles := loaded memory.vehicles row }

def loadCompany (memory : Memory) (row : Company) : Memory :=
  { memory with companies := loaded memory.companies row }

/-- The instances after a flushed change: they stand for the row just written. -/
def flushed (memory : Memory) : Write → Memory
  | .updateDriver loaded current =>
      { memory with
        drivers := { current with versionId := loaded.versionId + 1 } ::
          memory.drivers.filter fun copy => copy.id ≠ loaded.id }
  | .updateDeadline loaded current =>
      { memory with
        deadlines := current :: memory.deadlines.filter fun copy => copy.id ≠ loaded.id }
  | _ => memory

end Memory

namespace Connection

/-- Row-level security: the rows of the pinned company. -/
def sees (connection : Connection) (companyId : Uuid) : Bool :=
  match connection.tenant with
  | none => true
  | some tenant => tenant = companyId

/-- The committed database under the transaction's own writes. -/
def view (connection : Connection) (db : Db) : Db :=
  connection.journal.view db

/-- What the transaction holds. -/
def holds (connection : Connection) (ref : Ref) : Bool :=
  ref ∈ (Journal.held Db connection.journal).map Prod.fst

def lock (connection : Connection) (world : World) (refs : List Ref) : Connection :=
  { connection with
    journal := connection.journal ++ refs.map fun ref => (world, .lock ref) }

def write (connection : Connection) (world : World) (write : Write) : Connection :=
  { connection with journal := connection.journal ++ [(world, .write write)] }

end Connection

/-- Another open transaction holds `ref`. -/
def heldByOthers (others : List Connection) (ref : Ref) : Bool :=
  others.any fun other => other.holds ref

/-- Another open transaction holds the row FOR UPDATE. -/
def lockedByOthers (others : List Connection) (ref : Ref) : Bool :=
  others.any fun other => other.journal.any fun entry =>
    match entry.2 with
    | .lock own => own = ref
    | .write write => ref ∈ write.rekeys

/-- Another open transaction holds the row FOR KEY SHARE. -/
def sharedByOthers (others : List Connection) (ref : Ref) : Bool :=
  others.any fun other => other.journal.writes.any fun write => ref ∈ write.parents

/-! ### Queries -/

/-- The later of two evidence rows by `created_at`, then `id`. -/
def laterEntry (first second : ComplianceCheckLog) : Bool :=
  first.createdAt < second.createdAt ∨
    first.createdAt = second.createdAt ∧ first.id.bits < second.id.bits

/-- `ORDER BY created_at DESC, id DESC LIMIT 1`. -/
def latestEntry : List ComplianceCheckLog → Option ComplianceCheckLog
  | [] => none
  | entry :: rest =>
      match latestEntry rest with
      | none => some entry
      | some best => if laterEntry best entry then some entry else some best

/-- The order of the relay's queue: priority, then age. -/
def queueLe (first second : OutboxMessage) : Bool :=
  first.priority < second.priority ∨
    first.priority = second.priority ∧ first.createdAt ≤ second.createdAt

/-- The outbox rows a relay cycle may claim. -/
def OutboxMessage.isDue (message : OutboxMessage) (now : Instant) : Bool :=
  message.sentAt.isNone ∧ message.deadLetteredAt.isNone ∧ message.nextAttemptAt ≤ now

/-- The accounts that are notified. -/
def AccountUser.isNotified (user : AccountUser) (companyId : Uuid) : Bool :=
  user.companyId = companyId ∧ (user.role = .owner ∨ user.role = .manager) ∧ user.isActive

/-! ### Statements -/

section Perform

variable {statement : Statement}

/-- The result of sending a statement; `none` while it has to wait. -/
abbrev Reply (statement : Statement) :=
  Option (Except Error (Answer statement) × Memory × Connection)

def reply (answer : Answer statement) (memory : Memory) (connection : Connection) :
    Reply statement :=
  some (.ok answer, memory, connection)

/-- Lock rows, then answer. -/
def lockAndReply (world : World) (others : List Connection) (refs : List Ref)
    (answer : Answer statement) (memory : Memory) (connection : Connection) : Reply statement :=
  if refs.any (heldByOthers others) then none
  else some (.ok answer, memory, connection.lock world refs)

/-- `FOR UPDATE` of one row: it also waits for those who hold the row FOR KEY SHARE. -/
def lockRowAndReply (world : World) (others : List Connection) (ref : Ref)
    (answer : Answer statement) (memory : Memory) (connection : Connection) : Reply statement :=
  if sharedByOthers others ref then none
  else lockAndReply world others [ref] answer memory connection

/-- Execute a write: wait for what it needs, check it, journal it. -/
def executeAndReply (world : World) (others : List Connection) (write : Write)
    (answer : Answer statement) (memory : Memory) (connection : Connection) : Reply statement :=
  if write.footprint.any (heldByOthers others) ∨ write.parents.any (lockedByOthers others) ∨
      write.rekeys.any (sharedByOthers others) ∨
      others.any fun other => other.journal.writes.any fun pending =>
        write.waitsFor world.db pending then none
  else
    match write.check (connection.view world.db) with
    | .error error => some (.error error, memory, connection)
    | .ok () => some (.ok answer, memory.flushed write, connection.write world write)

def perform (world : World) (env : Env) (others : List Connection) (memory : Memory)
    (connection : Connection) : (statement : Statement) → Reply statement
  | .begin => reply () memory { connection with startedAt := env.now }
  | .now => reply env.now memory connection
  | .serverDefaults => reply (env.fresh, connection.startedAt) memory connection
  | .uuid4 => reply env.fresh memory connection
  | .getDriver id =>
      match ((connection.view world.db).drivers.find id).filter fun row =>
          connection.sees row.companyId with
      | none => reply none memory connection
      | some row =>
          reply (some (Memory.instanceOf memory.drivers row)) (memory.loadDriver row) connection
  | .driverForUpdate id companyId =>
      match ((connection.view world.db).drivers.find id).filter fun row =>
          connection.sees row.companyId && companyId.all (· = row.companyId) with
      | none => reply none memory connection
      | some row =>
          lockRowAndReply world others (.driver id) (some (Memory.instanceOf memory.drivers row))
            (memory.loadDriver row) connection
  | .getVehicle id =>
      match ((connection.view world.db).vehicles.find id).filter fun row =>
          connection.sees row.companyId with
      | none => reply none memory connection
      | some row =>
          reply (some (Memory.instanceOf memory.vehicles row)) (memory.loadVehicle row) connection
  | .vehicleForUpdate id =>
      match ((connection.view world.db).vehicles.find id).filter fun row =>
          connection.sees row.companyId with
      | none => reply none memory connection
      | some row =>
          lockRowAndReply world others (.vehicle id) (some (Memory.instanceOf memory.vehicles row))
            (memory.loadVehicle row) connection
  | .getCompany id =>
      match ((connection.view world.db).companies.find id).filter fun row =>
          connection.sees row.id with
      | none => reply none memory connection
      | some row =>
          reply (some (Memory.instanceOf memory.companies row)) (memory.loadCompany row) connection
  | .deadlineForUpdate id companyId =>
      match ((connection.view world.db).deadlines.find id).filter fun row =>
          connection.sees row.companyId && row.companyId = companyId with
      | none => reply none memory connection
      | some row =>
          lockRowAndReply world others (.deadline id)
            (some (Memory.instanceOf memory.deadlines row)) (memory.loadDeadline row) connection
  | .openDeadline subject kind =>
      let rows := (connection.view world.db).deadlines.rows.filter fun row =>
        connection.sees row.companyId && row.subject = subject && row.kind = kind &&
          row.status = .open
      match rows[env.pick % rows.length]? with
      | none => reply none memory connection
      | some row =>
          reply (some (Memory.instanceOf memory.deadlines row)) (memory.loadDeadline row)
            connection
  | .openDeadlines =>
      reply ((connection.view world.db).deadlines.rows.filter fun row =>
        connection.sees row.companyId && row.status = .open) memory connection
  | .openCase driverId =>
      reply ((connection.view world.db).cases.rows.find? fun row =>
        connection.sees row.companyId && row.driverId = driverId && row.status = .open)
        memory connection
  | .openCasesForUpdate =>
      let rows := (connection.view world.db).cases.rows.filter fun row =>
        connection.sees row.companyId && row.status = .open && !heldByOthers others (.case row.id)
      lockAndReply world others (rows.map fun row => .case row.id) rows memory connection
  | .latestHash subject =>
      reply ((latestEntry ((connection.view world.db).checkLog.rows.filter fun entry =>
        connection.sees entry.companyId && entry.about subject)).map
          ComplianceCheckLog.entryHash) memory connection
  | .notifiedUsers companyId =>
      reply ((connection.view world.db).accountUsers.rows.filter fun user =>
        connection.sees user.companyId && user.isNotified companyId) memory connection
  | .outboxKey key =>
      reply ((connection.view world.db).outbox.rows.any fun row =>
        connection.sees row.companyId && row.dedupKey = key) memory connection
  | .dueOutbox now limit =>
      let rows := (((connection.view world.db).outbox.rows.filter fun row =>
        connection.sees row.companyId && row.isDue now &&
          !heldByOthers others (.outbox row.id)).insertionSort fun first second =>
            queueLe first second).take limit
      lockAndReply world others (rows.map fun row => .outbox row.id) rows memory connection
  | .leavers =>
      reply ((connection.view world.db).drivers.rows.filter fun row =>
        connection.sees row.companyId && row.employmentEnd.isSome && row.anonymizedAt.isNone)
        memory connection
  | .companiesToDelete threshold =>
      reply ((connection.view world.db).companies.rows.filter fun row =>
        connection.sees row.id && row.deletionRequestedAt.any (· < threshold) &&
          row.deletedAt.isNone) memory connection
  | .companyUsers companyId =>
      reply ((connection.view world.db).accountUsers.rows.filter fun row =>
        connection.sees row.companyId && row.companyId = companyId) memory connection
  | .companyDrivers companyId =>
      reply ((connection.view world.db).drivers.rows.filter fun row =>
        connection.sees row.companyId && row.companyId = companyId) memory connection
  | .execute write => executeAndReply world others write () memory connection
  | .deleteOutboxBefore cutoff =>
      let rows := (connection.view world.db).outbox.rows.filter fun row =>
        connection.sees row.companyId && row.createdAt < cutoff
      executeAndReply world others (.deleteOutbox (rows.map OutboxMessage.id)) rows.length
        memory connection
  | .deleteOutboxOf companyId =>
      let rows := (connection.view world.db).outbox.rows.filter fun row =>
        connection.sees row.companyId && row.companyId = companyId
      executeAndReply world others (.deleteOutbox (rows.map OutboxMessage.id)) rows.length
        memory connection
  | .revokeSessionsOf companyId now =>
      let rows := (connection.view world.db).userSessions.rows.filter fun row =>
        row.companyId = companyId ∧ row.revokedAt.isNone
      executeAndReply world others (.revokeSessions (rows.map UserSession.id) now) ()
        memory connection
  | .acceptInvitationsOf companyId now =>
      let rows := (connection.view world.db).invitations.rows.filter fun row =>
        row.companyId = companyId ∧ row.acceptedAt.isNone
      executeAndReply world others (.acceptInvitations (rows.map Invitation.id) now) ()
        memory connection
  | .savepoint =>
      reply () memory { connection with savepoint := some connection.journal.length }
  | .rollbackTo =>
      reply () .empty
        { connection with
          journal := connection.journal.take (connection.savepoint.getD 0)
          savepoint := none }
  | .release => reply () memory { connection with savepoint := none }
  | .deliver _ =>
      match env.delivery with
      | .delivered messageId => reply (.ok messageId) memory connection
      | .refused error => reply (.error error) memory connection
      | .crashed => some (.error .notifier, memory, connection)

end Perform

end Fristenwaechter
