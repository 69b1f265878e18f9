import Fristenwaechter.UnitOfWork

/-!
Owns what a session knows after each of its statements, whatever the world it was
sent in: the recorded entry, the answer read off that entry's world, and the session
after it. The functions of the program are analysed with these rules only.
-/

namespace Fristenwaechter

open Library (Program Transaction Entry Server Journal)
open Library.Program (memory change forEach)

/-- The OPEN case a session sees. -/
def Sent.openCase (entry : Sent) (driverId : Uuid) : Option EscalationCase :=
  entry.db.cases.rows.find? fun row =>
    entry.connection.sees row.companyId && row.driverId = driverId && row.status = .open

/-- The tip of an evidence chain as a session sees it. -/
def Sent.tip (entry : Sent) (subject : Subject) : Option ComplianceCheckLog :=
  latestEntry (entry.db.checkLog.rows.filter fun row =>
    entry.connection.sees row.companyId && row.about subject)

/-- The accounts that are notified as a session sees them. -/
def Sent.notifiedUsers (entry : Sent) (companyId : Uuid) : List AccountUser :=
  entry.db.accountUsers.rows.filter fun user =>
    entry.connection.sees user.companyId && user.isNotified companyId

/-- The driver row a session can see under an id, possibly of one company only. -/
def Sent.driver (entry : Sent) (id : Uuid) (companyId : Option Uuid) : Option Driver :=
  (entry.db.drivers.find id).filter fun row =>
    entry.connection.sees row.companyId && companyId.all (· = row.companyId)

/-- The vehicle row a session can see under an id. -/
def Sent.vehicle (entry : Sent) (id : Uuid) : Option Vehicle :=
  (entry.db.vehicles.find id).filter fun row => entry.connection.sees row.companyId

/-- The company row a session can see under an id. -/
def Sent.company (entry : Sent) (id : Uuid) : Option Company :=
  (entry.db.companies.find id).filter fun row => entry.connection.sees row.id

/-- The drivers a session can see who have left and are not anonymized. -/
def Sent.leavers (entry : Sent) : List Driver :=
  entry.db.drivers.rows.filter fun row =>
    entry.connection.sees row.companyId && row.employmentEnd.isSome && row.anonymizedAt.isNone

/-- The deadline row of a company a session can see under an id. -/
def Sent.deadline (entry : Sent) (id companyId : Uuid) : Option Deadline :=
  (entry.db.deadlines.find id).filter fun row =>
    entry.connection.sees row.companyId && row.companyId = companyId

/-- The OPEN deadlines of a subject and kind a session can see. -/
def Sent.openDeadlinesOf (entry : Sent) (subject : Subject) (kind : DeadlineKind) :
    List Deadline :=
  entry.db.deadlines.rows.filter fun row =>
    entry.connection.sees row.companyId && row.subject = subject && row.kind = kind &&
      row.status = .open

/-- The OPEN cases a session can see and nobody else has locked. -/
def Sent.claimableCases (entry : Sent) : List EscalationCase :=
  entry.db.cases.rows.filter fun row =>
    entry.connection.sees row.companyId && row.status = .open &&
      !heldByOthers entry.others (.case row.id)

/-- The due messages a session can see and nobody else has locked, in the order of the
queue. -/
def Sent.dueMessages (entry : Sent) (now : Instant) (limit : Nat) : List OutboxMessage :=
  ((entry.db.outbox.rows.filter fun row =>
    entry.connection.sees row.companyId && row.isDue now &&
      !heldByOthers entry.others (.outbox row.id)).insertionSort fun first second =>
        queueLe first second).take limit

namespace Session

def saw (session : Session) (entry : Sent) : Session :=
  ⟨session.memory, session.connection, session.trace ++ [entry]⟩

def sawAll (session : Session) (entries : List Sent) : Session :=
  ⟨session.memory, session.connection, session.trace ++ entries⟩

def locked (session : Session) (entry : Sent) (refs : List Ref) : Session :=
  ⟨session.memory, session.connection.lock entry.world refs, session.trace ++ [entry]⟩

def wrote (session : Session) (entry : Sent) (write : Write) : Session :=
  ⟨session.memory.flushed write, session.connection.write entry.world write,
    session.trace ++ [entry]⟩

def begun (session : Session) (entry : Sent) : Session :=
  ⟨session.memory, { session.connection with startedAt := entry.env.now },
    session.trace ++ [entry]⟩

def saved (session : Session) (entry : Sent) : Session :=
  ⟨session.memory,
    { session.connection with savepoint := some session.connection.journal.length },
    session.trace ++ [entry]⟩

def released (session : Session) (entry : Sent) : Session :=
  ⟨session.memory, { session.connection with savepoint := none }, session.trace ++ [entry]⟩

def rolledBack (session : Session) (entry : Sent) : Session :=
  ⟨.empty,
    { session.connection with
      journal := session.connection.journal.take (session.connection.savepoint.getD 0)
      savepoint := none },
    session.trace ++ [entry]⟩

def withMemory (session : Session) (memory : Memory) : Session :=
  { session with memory := memory }

def withPending (session : Session) (pending : List Write) : Session :=
  session.withMemory { session.memory with pending := pending }

def writes (session : Session) : List Write :=
  session.connection.journal.writes

section Fields

variable (session : Session) (entry : Sent) (refs : List Ref) (write : Write)
variable (memory : Memory) (pending : List Write)

@[simp] theorem saw_memory : (session.saw entry).memory = session.memory := rfl
@[simp] theorem saw_connection : (session.saw entry).connection = session.connection := rfl
@[simp] theorem saw_trace : (session.saw entry).trace = session.trace ++ [entry] := rfl
@[simp] theorem saw_writes : (session.saw entry).writes = session.writes := rfl

@[simp] theorem sawAll_memory (entries : List Sent) :
    (session.sawAll entries).memory = session.memory :=
  rfl

@[simp] theorem sawAll_connection (entries : List Sent) :
    (session.sawAll entries).connection = session.connection :=
  rfl

@[simp] theorem sawAll_trace (entries : List Sent) :
    (session.sawAll entries).trace = session.trace ++ entries :=
  rfl

@[simp] theorem sawAll_writes (entries : List Sent) :
    (session.sawAll entries).writes = session.writes :=
  rfl

@[simp] theorem locked_memory : (session.locked entry refs).memory = session.memory := rfl
@[simp] theorem locked_trace : (session.locked entry refs).trace = session.trace ++ [entry] := rfl

@[simp] theorem locked_connection :
    (session.locked entry refs).connection = session.connection.lock entry.world refs :=
  rfl

@[simp] theorem locked_writes : (session.locked entry refs).writes = session.writes := by
  simp [writes, Connection.lock, Journal.writes_append, Journal.writes_locks]

@[simp] theorem wrote_memory :
    (session.wrote entry write).memory = session.memory.flushed write :=
  rfl

@[simp] theorem wrote_trace : (session.wrote entry write).trace = session.trace ++ [entry] := rfl

@[simp] theorem wrote_connection :
    (session.wrote entry write).connection = session.connection.write entry.world write :=
  rfl

@[simp] theorem wrote_writes : (session.wrote entry write).writes = session.writes ++ [write] := by
  simp [writes, Connection.write, Journal.writes]

@[simp] theorem begun_memory : (session.begun entry).memory = session.memory := rfl
@[simp] theorem begun_writes : (session.begun entry).writes = session.writes := rfl
@[simp] theorem begun_trace : (session.begun entry).trace = session.trace ++ [entry] := rfl
@[simp] theorem saved_memory : (session.saved entry).memory = session.memory := rfl
@[simp] theorem saved_writes : (session.saved entry).writes = session.writes := rfl
@[simp] theorem saved_trace : (session.saved entry).trace = session.trace ++ [entry] := rfl
@[simp] theorem released_memory : (session.released entry).memory = session.memory := rfl
@[simp] theorem released_writes : (session.released entry).writes = session.writes := rfl
@[simp] theorem released_trace : (session.released entry).trace = session.trace ++ [entry] := rfl
@[simp] theorem rolledBack_memory : (session.rolledBack entry).memory = .empty := rfl

@[simp] theorem rolledBack_trace :
    (session.rolledBack entry).trace = session.trace ++ [entry] :=
  rfl

@[simp] theorem withMemory_memory : (session.withMemory memory).memory = memory := rfl

@[simp] theorem withMemory_connection :
    (session.withMemory memory).connection = session.connection :=
  rfl

@[simp] theorem withMemory_trace : (session.withMemory memory).trace = session.trace := rfl
@[simp] theorem withMemory_writes : (session.withMemory memory).writes = session.writes := rfl

@[simp] theorem withPending_pending : (session.withPending pending).memory.pending = pending := rfl

@[simp] theorem withPending_connection :
    (session.withPending pending).connection = session.connection :=
  rfl

@[simp] theorem withPending_trace : (session.withPending pending).trace = session.trace := rfl
@[simp] theorem withPending_writes : (session.withPending pending).writes = session.writes := rfl

@[simp] theorem withPending_saw :
    (session.withPending pending).saw entry = (session.saw entry).withPending pending :=
  rfl

@[simp] theorem withPending_sawAll (entries : List Sent) :
    (session.withPending pending).sawAll entries =
      (session.sawAll entries).withPending pending :=
  rfl

@[simp] theorem withPending_withPending (other : List Write) :
    (session.withPending pending).withPending other = session.withPending other :=
  rfl

end Fields

end Session

namespace Memory

@[simp] theorem flushed_pending (memory : Memory) (write : Write) :
    (memory.flushed write).pending = memory.pending := by
  cases write <;> rfl

@[simp] theorem loadDriver_pending (memory : Memory) (row : Driver) :
    (memory.loadDriver row).pending = memory.pending :=
  rfl

@[simp] theorem loadDeadline_pending (memory : Memory) (row : Deadline) :
    (memory.loadDeadline row).pending = memory.pending :=
  rfl

@[simp] theorem loadVehicle_pending (memory : Memory) (row : Vehicle) :
    (memory.loadVehicle row).pending = memory.pending :=
  rfl

end Memory

/-! ### Single statements -/

section Statements

variable {session after : Session} {Result : Type}

theorem sends_reply {statement : Statement} {answer : Except Error (Answer statement)}
    {given : World → Env → Answer statement}
    (replies : ∀ world env others, perform world env others session.memory session.connection
      statement = reply (given world env) session.memory session.connection)
    (sent : postgres.Sends statement session answer after) :
    ∃ entry, session.Asked statement entry ∧ answer = .ok (given entry.world entry.env) ∧
      after = session.saw entry := by
  obtain ⟨entry, memory, connection, asked, performed, rfl⟩ := sends_iff.mp sent
  rw [replies] at performed
  obtain ⟨same, rfl, rfl⟩ := reply_inv performed
  exact ⟨entry, asked, same, rfl⟩

theorem sends_now {answer : Except Error Instant}
    (sent : postgres.Sends .now session answer after) :
    ∃ entry, session.Asked .now entry ∧ answer = .ok entry.env.now ∧
      after = session.saw entry :=
  sends_reply (fun _ _ _ => rfl) sent

theorem sends_uuid4 {answer : Except Error Uuid}
    (sent : postgres.Sends .uuid4 session answer after) :
    ∃ entry, session.Asked .uuid4 entry ∧ answer = .ok entry.env.fresh ∧
      after = session.saw entry :=
  sends_reply (fun _ _ _ => rfl) sent

theorem sends_serverDefaults {answer : Except Error (Uuid × Instant)}
    (sent : postgres.Sends .serverDefaults session answer after) :
    ∃ entry, session.Asked .serverDefaults entry ∧
      answer = .ok (entry.env.fresh, session.connection.startedAt) ∧
      after = session.saw entry :=
  sends_reply (fun _ _ _ => rfl) sent

theorem sends_openCase {driverId : Uuid} {answer : Except Error (Option EscalationCase)}
    (sent : postgres.Sends (.openCase driverId) session answer after) :
    ∃ entry, session.Asked (.openCase driverId) entry ∧ answer = .ok (entry.openCase driverId) ∧
      after = session.saw entry := by
  obtain ⟨entry, asked, same, after⟩ := sends_reply (fun _ _ _ => rfl) sent
  refine ⟨entry, asked, ?_, after⟩
  rw [same, Sent.openCase, Sent.db, asked.connection]
  rfl

theorem sends_latestHash {subject : Subject} {answer : Except Error (Option Str)}
    (sent : postgres.Sends (.latestHash subject) session answer after) :
    ∃ entry, session.Asked (.latestHash subject) entry ∧
      answer = .ok ((entry.tip subject).map ComplianceCheckLog.entryHash) ∧
      after = session.saw entry := by
  obtain ⟨entry, asked, same, after⟩ := sends_reply (fun _ _ _ => rfl) sent
  refine ⟨entry, asked, ?_, after⟩
  rw [same, Sent.tip, Sent.db, asked.connection]
  rfl

theorem sends_notifiedUsers {companyId : Uuid} {answer : Except Error (List AccountUser)}
    (sent : postgres.Sends (.notifiedUsers companyId) session answer after) :
    ∃ entry, session.Asked (.notifiedUsers companyId) entry ∧
      answer = .ok (entry.notifiedUsers companyId) ∧ after = session.saw entry := by
  obtain ⟨entry, asked, same, after⟩ := sends_reply (fun _ _ _ => rfl) sent
  refine ⟨entry, asked, ?_, after⟩
  rw [same, Sent.notifiedUsers, Sent.db, asked.connection]
  rfl

theorem sends_getDriver {id : Uuid} {answer : Except Error (Option Driver)}
    (sent : postgres.Sends (.getDriver id) session answer after) :
    ∃ entry, session.Asked (.getDriver id) entry ∧
      ((entry.driver id none = none ∧ answer = .ok none ∧ after = session.saw entry) ∨
        ∃ row, entry.driver id none = some row ∧
          answer = .ok (some (Memory.instanceOf session.memory.drivers row)) ∧
          after = (session.saw entry).withMemory (session.memory.loadDriver row)) := by
  obtain ⟨entry, memory, connection, asked, performed, rfl⟩ := sends_iff.mp sent
  have looked : entry.driver id none =
      ((session.connection.view entry.world.db).drivers.find id).filter fun row =>
        session.connection.sees row.companyId := by
    simp [Sent.driver, Sent.db, asked.connection]
  refine ⟨entry, asked, ?_⟩
  rw [looked]
  delta perform at performed
  dsimp only at performed
  split at performed
  · rename_i missing
    obtain ⟨same, rfl, rfl⟩ := reply_inv performed
    exact .inl ⟨missing, same, rfl⟩
  · rename_i row found
    obtain ⟨same, rfl, rfl⟩ := reply_inv performed
    exact .inr ⟨row, found, same, rfl⟩

theorem sends_getVehicle {id : Uuid} {answer : Except Error (Option Vehicle)}
    (sent : postgres.Sends (.getVehicle id) session answer after) :
    ∃ entry, session.Asked (.getVehicle id) entry ∧
      ((entry.vehicle id = none ∧ answer = .ok none ∧ after = session.saw entry) ∨
        ∃ row, entry.vehicle id = some row ∧
          answer = .ok (some (Memory.instanceOf session.memory.vehicles row)) ∧
          after = (session.saw entry).withMemory (session.memory.loadVehicle row)) := by
  obtain ⟨entry, memory, connection, asked, performed, rfl⟩ := sends_iff.mp sent
  refine ⟨entry, asked, ?_⟩
  rw [Sent.vehicle, Sent.db, asked.connection]
  delta perform at performed
  dsimp only at performed
  split at performed
  · rename_i missing
    obtain ⟨same, rfl, rfl⟩ := reply_inv performed
    exact .inl ⟨missing, same, rfl⟩
  · rename_i row found
    obtain ⟨same, rfl, rfl⟩ := reply_inv performed
    exact .inr ⟨row, found, same, rfl⟩

theorem sends_getCompany {id : Uuid} {answer : Except Error (Option Company)}
    (sent : postgres.Sends (.getCompany id) session answer after) :
    ∃ entry, session.Asked (.getCompany id) entry ∧
      ((entry.company id = none ∧ answer = .ok none ∧ after = session.saw entry) ∨
        ∃ row, entry.company id = some row ∧
          answer = .ok (some (Memory.instanceOf session.memory.companies row)) ∧
          after = (session.saw entry).withMemory (session.memory.loadCompany row)) := by
  obtain ⟨entry, memory, connection, asked, performed, rfl⟩ := sends_iff.mp sent
  refine ⟨entry, asked, ?_⟩
  rw [Sent.company, Sent.db, asked.connection]
  delta perform at performed
  dsimp only at performed
  split at performed
  · rename_i missing
    obtain ⟨same, rfl, rfl⟩ := reply_inv performed
    exact .inl ⟨missing, same, rfl⟩
  · rename_i row found
    obtain ⟨same, rfl, rfl⟩ := reply_inv performed
    exact .inr ⟨row, found, same, rfl⟩

theorem sends_leavers {answer : Except Error (List Driver)}
    (sent : postgres.Sends .leavers session answer after) :
    ∃ entry, session.Asked .leavers entry ∧ answer = .ok entry.leavers ∧
      after = session.saw entry := by
  obtain ⟨entry, asked, same, isAfter⟩ := sends_reply (fun _ _ _ => rfl) sent
  refine ⟨entry, asked, ?_, isAfter⟩
  rw [same, Sent.leavers, Sent.db, asked.connection]
  rfl

theorem sends_driverForUpdate {id : Uuid} {companyId : Option Uuid}
    {answer : Except Error (Option Driver)}
    (sent : postgres.Sends (.driverForUpdate id companyId) session answer after) :
    ∃ entry, session.Asked (.driverForUpdate id companyId) entry ∧
      ((entry.driver id companyId = none ∧ answer = .ok none ∧ after = session.saw entry) ∨
        ∃ row, entry.driver id companyId = some row ∧
          answer = .ok (some (Memory.instanceOf session.memory.drivers row)) ∧
          after = (session.locked entry [.driver id]).withMemory
            (session.memory.loadDriver row)) := by
  obtain ⟨entry, memory, connection, asked, performed, rfl⟩ := sends_iff.mp sent
  refine ⟨entry, asked, ?_⟩
  rw [Sent.driver, Sent.db, asked.connection]
  delta perform at performed
  dsimp only at performed
  split at performed
  · rename_i missing
    obtain ⟨same, rfl, rfl⟩ := reply_inv performed
    exact .inl ⟨missing, same, rfl⟩
  · rename_i row found
    obtain ⟨_, same, rfl, rfl⟩ := lockAndReply_inv (lockRowAndReply_inv performed)
    exact .inr ⟨row, found, same, rfl⟩

theorem sends_vehicleForUpdate {id : Uuid} {answer : Except Error (Option Vehicle)}
    (sent : postgres.Sends (.vehicleForUpdate id) session answer after) :
    ∃ entry, session.Asked (.vehicleForUpdate id) entry ∧
      ((entry.vehicle id = none ∧ answer = .ok none ∧ after = session.saw entry) ∨
        ∃ row, entry.vehicle id = some row ∧
          answer = .ok (some (Memory.instanceOf session.memory.vehicles row)) ∧
          after = (session.locked entry [.vehicle id]).withMemory
            (session.memory.loadVehicle row)) := by
  obtain ⟨entry, memory, connection, asked, performed, rfl⟩ := sends_iff.mp sent
  refine ⟨entry, asked, ?_⟩
  rw [Sent.vehicle, Sent.db, asked.connection]
  delta perform at performed
  dsimp only at performed
  split at performed
  · rename_i missing
    obtain ⟨same, rfl, rfl⟩ := reply_inv performed
    exact .inl ⟨missing, same, rfl⟩
  · rename_i row found
    obtain ⟨_, same, rfl, rfl⟩ := lockAndReply_inv (lockRowAndReply_inv performed)
    exact .inr ⟨row, found, same, rfl⟩

theorem sends_deadlineForUpdate {id companyId : Uuid} {answer : Except Error (Option Deadline)}
    (sent : postgres.Sends (.deadlineForUpdate id companyId) session answer after) :
    ∃ entry, session.Asked (.deadlineForUpdate id companyId) entry ∧
      ((entry.deadline id companyId = none ∧ answer = .ok none ∧ after = session.saw entry) ∨
        ∃ row, entry.deadline id companyId = some row ∧
          answer = .ok (some (Memory.instanceOf session.memory.deadlines row)) ∧
          after = (session.locked entry [.deadline id]).withMemory
            (session.memory.loadDeadline row)) := by
  obtain ⟨entry, memory, connection, asked, performed, rfl⟩ := sends_iff.mp sent
  refine ⟨entry, asked, ?_⟩
  rw [Sent.deadline, Sent.db, asked.connection]
  delta perform at performed
  dsimp only at performed
  split at performed
  · rename_i missing
    obtain ⟨same, rfl, rfl⟩ := reply_inv performed
    exact .inl ⟨missing, same, rfl⟩
  · rename_i row found
    obtain ⟨_, same, rfl, rfl⟩ := lockAndReply_inv (lockRowAndReply_inv performed)
    exact .inr ⟨row, found, same, rfl⟩

theorem sends_openDeadline {subject : Subject} {kind : DeadlineKind}
    {answer : Except Error (Option Deadline)}
    (sent : postgres.Sends (.openDeadline subject kind) session answer after) :
    ∃ entry, session.Asked (.openDeadline subject kind) entry ∧
      ((entry.openDeadlinesOf subject kind = [] ∧ answer = .ok none ∧
          after = session.saw entry) ∨
        ∃ row ∈ entry.openDeadlinesOf subject kind,
          answer = .ok (some (Memory.instanceOf session.memory.deadlines row)) ∧
          after = (session.saw entry).withMemory (session.memory.loadDeadline row)) := by
  obtain ⟨entry, memory, connection, asked, performed, rfl⟩ := sends_iff.mp sent
  have looked : entry.openDeadlinesOf subject kind =
      (session.connection.view entry.world.db).deadlines.rows.filter fun row =>
        session.connection.sees row.companyId && row.subject = subject && row.kind = kind &&
          row.status = .open := by
    rw [Sent.openDeadlinesOf, Sent.db, asked.connection]
  refine ⟨entry, asked, ?_⟩
  rw [looked]
  delta perform at performed
  dsimp only at performed
  split at performed
  · rename_i missing
    obtain ⟨same, rfl, rfl⟩ := reply_inv performed
    refine .inl ⟨?_, same, rfl⟩
    by_contra nonempty
    have inRange := Nat.mod_lt entry.env.pick (List.length_pos_iff.mpr nonempty)
    exact absurd (List.getElem?_eq_none_iff.mp missing) (Nat.not_le.mpr inRange)
  · rename_i row found
    obtain ⟨same, rfl, rfl⟩ := reply_inv performed
    exact .inr ⟨row, List.mem_of_getElem? found, same, rfl⟩

theorem sends_openCasesForUpdate {answer : Except Error (List EscalationCase)}
    (sent : postgres.Sends .openCasesForUpdate session answer after) :
    ∃ entry, session.Asked .openCasesForUpdate entry ∧ answer = .ok entry.claimableCases ∧
      after = session.locked entry (entry.claimableCases.map fun row => .case row.id) := by
  obtain ⟨entry, memory, connection, asked, performed, rfl⟩ := sends_iff.mp sent
  refine ⟨entry, asked, ?_⟩
  rw [Sent.claimableCases, Sent.db, asked.connection]
  delta perform at performed
  dsimp only at performed
  obtain ⟨_, same, rfl, rfl⟩ := lockAndReply_inv performed
  exact ⟨same, rfl⟩

theorem sends_dueOutbox {now : Instant} {limit : Nat} {answer : Except Error (List OutboxMessage)}
    (sent : postgres.Sends (.dueOutbox now limit) session answer after) :
    ∃ entry, session.Asked (.dueOutbox now limit) entry ∧
      answer = .ok (entry.dueMessages now limit) ∧
      after = session.locked entry ((entry.dueMessages now limit).map fun row =>
        .outbox row.id) := by
  obtain ⟨entry, memory, connection, asked, performed, rfl⟩ := sends_iff.mp sent
  refine ⟨entry, asked, ?_⟩
  rw [Sent.dueMessages, Sent.db, asked.connection]
  delta perform at performed
  dsimp only at performed
  obtain ⟨_, same, rfl, rfl⟩ := lockAndReply_inv performed
  exact ⟨same, rfl⟩

/-- A send delivers, is refused, or crashes the cycle. -/
theorem sends_deliver {message : OutboxMessage} {answer : Except Error (Except Str Str)}
    (sent : postgres.Sends (.deliver message) session answer after) :
    ∃ entry, session.Asked (.deliver message) entry ∧ after = session.saw entry ∧
      ((∃ messageId, entry.env.delivery = .delivered messageId ∧ answer = .ok (.ok messageId)) ∨
        (∃ error, entry.env.delivery = .refused error ∧ answer = .ok (.error error)) ∨
        entry.env.delivery = .crashed ∧ answer = .error .notifier) := by
  obtain ⟨entry, memory, connection, asked, performed, rfl⟩ := sends_iff.mp sent
  refine ⟨entry, asked, ?_⟩
  delta perform at performed
  dsimp only at performed
  split at performed
  · rename_i messageId delivered
    obtain ⟨same, rfl, rfl⟩ := reply_inv performed
    exact ⟨rfl, .inl ⟨messageId, delivered, same⟩⟩
  · rename_i error refused
    obtain ⟨same, rfl, rfl⟩ := reply_inv performed
    exact ⟨rfl, .inr (.inl ⟨error, refused, same⟩)⟩
  · rename_i crashed
    cases performed
    exact ⟨rfl, .inr (.inr ⟨crashed, rfl⟩)⟩

theorem sends_begin {answer : Except Error Unit}
    (sent : postgres.Sends .begin session answer after) :
    ∃ entry, session.Asked .begin entry ∧ answer = .ok () ∧ after = session.begun entry := by
  obtain ⟨entry, memory, connection, asked, performed, rfl⟩ := sends_iff.mp sent
  delta perform at performed
  dsimp only at performed
  obtain ⟨same, rfl, rfl⟩ := reply_inv performed
  exact ⟨entry, asked, same, rfl⟩

theorem sends_execute {write : Write} {answer : Except Error Unit}
    (sent : postgres.Sends (.execute write) session answer after) :
    ∃ entry, session.Asked (.execute write) entry ∧
      ((∃ error, write.check entry.db = .error error ∧ answer = .error error ∧
          after = session.saw entry) ∨
        write.check entry.db = .ok () ∧ answer = .ok () ∧ after = session.wrote entry write) := by
  obtain ⟨entry, memory, connection, asked, performed, rfl⟩ := sends_iff.mp sent
  refine ⟨entry, asked, ?_⟩
  rw [Sent.db, asked.connection]
  delta perform at performed
  dsimp only at performed
  obtain ⟨_, ⟨error, failed, same, rfl, rfl⟩ | ⟨valid, same, rfl, rfl⟩⟩ :=
    executeAndReply_inv performed
  · exact .inl ⟨error, failed, same, rfl⟩
  · exact .inr ⟨valid, same, rfl⟩

theorem sends_savepoint {answer : Except Error Unit}
    (sent : postgres.Sends .savepoint session answer after) :
    ∃ entry, session.Asked .savepoint entry ∧ answer = .ok () ∧ after = session.saved entry := by
  obtain ⟨entry, memory, connection, asked, performed, rfl⟩ := sends_iff.mp sent
  delta perform at performed
  dsimp only at performed
  obtain ⟨same, rfl, rfl⟩ := reply_inv performed
  exact ⟨entry, asked, same, rfl⟩

theorem sends_release {answer : Except Error Unit}
    (sent : postgres.Sends .release session answer after) :
    ∃ entry, session.Asked .release entry ∧ answer = .ok () ∧ after = session.released entry := by
  obtain ⟨entry, memory, connection, asked, performed, rfl⟩ := sends_iff.mp sent
  delta perform at performed
  dsimp only at performed
  obtain ⟨same, rfl, rfl⟩ := reply_inv performed
  exact ⟨entry, asked, same, rfl⟩

theorem sends_rollbackTo {answer : Except Error Unit}
    (sent : postgres.Sends .rollbackTo session answer after) :
    ∃ entry, session.Asked .rollbackTo entry ∧ answer = .ok () ∧
      after = session.rolledBack entry := by
  obtain ⟨entry, memory, connection, asked, performed, rfl⟩ := sends_iff.mp sent
  delta perform at performed
  dsimp only at performed
  obtain ⟨same, rfl, rfl⟩ := reply_inv performed
  exact ⟨entry, asked, same, rfl⟩

end Statements

end Fristenwaechter
