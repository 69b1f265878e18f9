import Fristenwaechter.Isolation

/-!
Owns the unit of work of SQLAlchemy over the statements of a session: changes stay
pending until a flush; a SELECT flushes first; a flush executes the pending writes
mapper by mapper, UPDATEs before INSERTs; an assignment that changes no column emits
nothing; `begin_nested` is a savepoint that is released or rolled back to.
-/

namespace Fristenwaechter

open Library (Program)
open Library.Program (memory change forEach)

/-- What a modelled function does in its session. -/
abbrev Work (Result : Type) :=
  Program Memory Statement Answer Error Result

def emit (statement : Statement) : Work (Answer statement) :=
  Program.send statement

/-- The place of a write's mapper in a flush: mapped classes by name. -/
def Write.mapper : Write → Nat
  | updateUser _ _ => 0
  | updateCompany _ _ => 1
  | insertLog _ => 2
  | insertDeadline _ => 3
  | updateDeadline _ _ => 3
  | insertDriver _ => 4
  | updateDriver _ _ => 4
  | insertCase _ => 5
  | updateCase _ => 5
  | acceptInvitations _ _ => 6
  | insertOutbox _ => 7
  | updateOutbox _ _ => 7
  | deleteOutbox _ => 7
  | insertAlert _ => 8
  | revokeSessions _ _ => 9
  | insertVehicle _ => 10

/-- The primary key of an updated row; a new row has none before its flush. -/
def Write.updates : Write → Option Uuid
  | updateUser loaded _ => some loaded.id
  | updateCompany loaded _ => some loaded.id
  | updateDeadline loaded _ => some loaded.id
  | updateDriver loaded _ => some loaded.id
  | updateCase change => some change.loaded.id
  | updateOutbox loaded _ => some loaded.id
  | _ => none

/-- The order of a flush: by mapper, updated rows by primary key, then new rows as they
were added. -/
def Write.flushLe (first second : Write) : Bool :=
  if first.mapper = second.mapper then
    match first.updates, second.updates with
    | some one, some other => one.bits ≤ other.bits
    | some _, none => true
    | none, some _ => false
    | none, none => true
  else first.mapper < second.mapper

/-- The pending writes in the order of their flush. -/
def unitOfWork (pending : List Write) : List Write :=
  pending.insertionSort fun first second => first.flushLe second

def executeAll (writes : List Write) : Work Unit :=
  forEach writes fun write => emit (.execute write)

/-- `await session.flush()`. -/
def flush : Work Unit := do
  let session ← memory
  change fun current => { current with pending := [] }
  executeAll (unitOfWork session.pending)

/-- A statement of the ORM: flushes first. -/
def select (statement : Statement) : Work (Answer statement) := do
  flush
  emit statement

/-- `session.add`, and every other pending change. -/
def add (write : Write) : Work Unit :=
  change fun current => { current with pending := current.pending ++ [write] }

/-- `await session.get(Driver, id)`. -/
def getDriver (id : Uuid) : Work (Option Driver) := do
  let session ← memory
  match session.drivers.find? fun copy => copy.id = id with
  | some copy => return some copy
  | none => select (.getDriver id)

/-- `await session.get(Vehicle, id)`. -/
def getVehicle (id : Uuid) : Work (Option Vehicle) := do
  let session ← memory
  match session.vehicles.find? fun copy => copy.id = id with
  | some copy => return some copy
  | none => select (.getVehicle id)

/-- `await session.get(Company, id)`. -/
def getCompany (id : Uuid) : Work (Option Company) := do
  let session ← memory
  match session.companies.find? fun copy => copy.id = id with
  | some copy => return some copy
  | none => select (.getCompany id)

/-- Pending changes of one object. -/
def addAll (writes : List Write) : Work Unit :=
  change fun current => { current with pending := current.pending ++ writes }

/-- The UPDATE an assignment leads to: none when no column has changed. -/
def Driver.update (loaded current : Driver) : List Write :=
  if current = loaded then [] else [.updateDriver loaded current]

def Deadline.update (loaded current : Deadline) : List Write :=
  if current = loaded then [] else [.updateDeadline loaded current]

def AccountUser.update (loaded current : AccountUser) : List Write :=
  if current = loaded then [] else [.updateUser loaded current]

def Company.update (loaded current : Company) : List Write :=
  if current = loaded then [] else [.updateCompany loaded current]

theorem Driver.mem_update {loaded current : Driver} {write : Write}
    (member : write ∈ loaded.update current) : write = .updateDriver loaded current := by
  unfold Driver.update at member
  split at member
  · cases member
  · exact List.mem_singleton.mp member

theorem Deadline.mem_update {loaded current : Deadline} {write : Write}
    (member : write ∈ loaded.update current) : write = .updateDeadline loaded current := by
  unfold Deadline.update at member
  split at member
  · cases member
  · exact List.mem_singleton.mp member

theorem AccountUser.mem_update {loaded current : AccountUser} {write : Write}
    (member : write ∈ loaded.update current) : write = .updateUser loaded current := by
  unfold AccountUser.update at member
  split at member
  · cases member
  · exact List.mem_singleton.mp member

theorem Company.mem_update {loaded current : Company} {write : Write}
    (member : write ∈ loaded.update current) : write = .updateCompany loaded current := by
  unfold Company.update at member
  split at member
  · cases member
  · exact List.mem_singleton.mp member

/-- Attribute assignments to a driver. -/
def assignDriver (loaded current : Driver) : Work Unit :=
  addAll (loaded.update current)

/-- Attribute assignments to a deadline. -/
def assignDeadline (loaded current : Deadline) : Work Unit :=
  addAll (loaded.update current)

/-- Attribute assignments to an account. -/
def assignUser (loaded current : AccountUser) : Work Unit :=
  addAll (loaded.update current)

/-- Attribute assignments to a company. -/
def assignCompany (loaded current : Company) : Work Unit :=
  addAll (loaded.update current)

/-- `async with session.begin_nested()`. -/
def nested {Result : Type} (body : Work Result) : Work Result := do
  flush
  emit .savepoint
  let result ← tryCatch (do
      let result ← body
      flush
      return result)
    fun error => do
      emit .rollbackTo
      throw error
  emit .release
  return result

/-- `async with session.begin()`: the commit flushes what is still pending. -/
def transaction {Result : Type} (body : Work Result) : Work Result := do
  let result ← body
  flush
  return result

/-- The value of a calendar computation, or the exception it raises. -/
def orThrow {Value : Type} (error : Error) : Option Value → Work Value
  | some value => pure value
  | none => throw error

/-- `now_berlin()`. -/
def nowBerlin : Work Instant :=
  emit .now

/-- `today_berlin()`. -/
def todayBerlin : Work Date := do
  orThrow .overflow (berlinDate (← nowBerlin))

end Fristenwaechter
