import Fristenwaechter.UnitOfWork

/-!
Owns `app/services/checks.py`: the append-only evidence chain, the completion of
deadlines with their successors, and the resolution of an OPEN escalation case.

SHA-256 with its hexadecimal digest is a parameter.
-/

namespace Fristenwaechter

variable (sha256 : Str → Str)

def resultPassed : Str :=
  "PASSED".toList

def resultFailed : Str :=
  "FAILED".toList

def resultFailedDefects : Str :=
  "FAILED_DEFECTS".toList

def nachpruefungDays : Int := 28

/-! ### Hash chain -/

def Json.ofOption : Option Str → Json
  | none => .null
  | some text => .str text

/-- The text that is hashed: the canonical JSON of the entry with the previous hash
folded in. -/
def entryMaterial (prevHash : Option Str) (fields : List (Str × Json)) : Str :=
  Json.dumps (.obj (("prev".toList, .str (prevHash.getD [])) :: fields))

/-- `_compute_entry_hash`. -/
def computeEntryHash (prevHash : Option Str) (fields : List (Str × Json)) : Str :=
  sha256 (entryMaterial prevHash fields)

def entryFields (companyId : Uuid) (driverId vehicleId : Option Uuid) (kind result : Str)
    (performedOn : Date) (method : Option Str) (params : List (Str × Json)) :
    List (Str × Json) :=
  [("company_id".toList, .str companyId.text),
    ("driver_id".toList, .ofOption (driverId.map Uuid.text)),
    ("vehicle_id".toList, .ofOption (vehicleId.map Uuid.text)),
    ("kind".toList, .str kind),
    ("result".toList, .str result),
    ("performed_on".toList, .str performedOn.isoformat),
    ("method".toList, .ofOption method),
    ("params".toList, .obj params)]

def entryRow (companyId : Uuid) (driverId vehicleId : Option Uuid) (kind result : Str)
    (performedOn : Date) (method : Option Str) (performedById : Option Uuid)
    (params : List (Str × Json)) (prevHash : Option Str) (id : Uuid) (createdAt : Instant) :
    ComplianceCheckLog where
  id := id
  createdAt := createdAt
  companyId := companyId
  driverId := driverId
  kind := kind
  result := result
  method := method
  performedById := performedById
  performedOn := performedOn
  params := params
  prevHash := prevHash
  entryHash := computeEntryHash sha256 prevHash
    (entryFields companyId driverId vehicleId kind result performedOn method params)

/-- The chain of a subject: its tip is read, and the row that points to it appended. -/
def appendCheck (companyId : Uuid) (kind result : Str) (performedOn : Date)
    (driverId vehicleId : Option Uuid) (subject : Subject) (method : Option Str)
    (performedById : Option Uuid) (params : List (Str × Json)) : Work ComplianceCheckLog := do
  let prevHash ← select (.latestHash subject)
  let (id, createdAt) ← emit .serverDefaults
  let row := entryRow sha256 companyId driverId vehicleId kind result performedOn method
    performedById params prevHash id createdAt
  add (.insertLog row)
  flush
  return row

/-- Append one hash-chained evidence row for exactly one of driver and vehicle. -/
def recordCheck (companyId : Uuid) (kind result : Str) (performedOn : Date)
    (driverId vehicleId : Option Uuid) (method : Option Str) (performedById : Option Uuid)
    (extraParams : List (Str × Json)) : Work ComplianceCheckLog :=
  match driverId, vehicleId with
  | some driver, none =>
      appendCheck sha256 companyId kind result performedOn driverId vehicleId (.driver driver)
        method performedById extraParams
  | none, some vehicle =>
      appendCheck sha256 companyId kind result performedOn driverId vehicleId (.vehicle vehicle)
        method performedById
        (Json.setMember "vehicle_id".toList (.str vehicle.text) extraParams)
  | _, _ => throw .value

/-! ### Deadline roll-forward -/

structure CompletionResult where
  completedDeadlineId : Uuid
  successorDeadlineId : Uuid
  checkLogId : Uuid
  /-- Set when a PASSED FSK cleared a lock. -/
  resolvedCaseId : Option Uuid
  isNachpruefung : Bool

/-- The attributes a PASSED check sets on the driver. -/
def Driver.unlocked (driver : Driver) : Driver :=
  { driver with
    isAuthorizedToDrive := true
    lockReason := none
    lockedAt := none }

/-- The attributes a PASSED check sets on the case. -/
def EscalationCase.resolved (case : EscalationCase) (now : Instant) (resolvedById : Option Uuid) :
    CaseChange where
  loaded := case
  current :=
    { case with
      status := .resolvedPassed
      resolvedAt := some now
      resolvedById := resolvedById }
  stays := by simp

/-- `_maybe_resolve_open_case`. The status of the case changes, so its UPDATE is always
due. -/
def maybeResolveOpenCase (driver : Driver) (resolvedById : Option Uuid) :
    Work (Option Uuid) := do
  let found ← select (.openCase driver.id)
  assignDriver driver driver.unlocked
  match found with
  | none => return none
  | some case =>
      let now ← nowBerlin
      add (.updateCase (case.resolved now resolvedById))
      return some case.id

/-- `_spawn`: the successor obligation, copying the subject from its parent. -/
def spawn (parent : Deadline) (dueOn : Date) (isNachpruefung : Bool) (id : Uuid) : Deadline where
  id := id
  companyId := parent.companyId
  kind := parent.kind
  subject := parent.subject
  dueOn := dueOn
  status := .open
  completedOn := none
  isNachpruefung := isNachpruefung

/-- The attributes `complete_deadline` sets on the deadline. -/
def Deadline.completed (deadline : Deadline) (completedOn : Date) : Deadline :=
  { deadline with
    status := .completed
    completedOn := some completedOn }

/-- What a completion has to spawn: the evidence row, the resolved case, the due date
and whether a Nachprüfung follows. -/
abbrev Completion := ComplianceCheckLog × Option Uuid × Date × Bool

/-- The FSK branch of `complete_deadline`. -/
def completeFsk (deadlineId companyId : Uuid) (result : Str) (completedOn : Date)
    (performedById : Option Uuid) (method : Option Str) (driverId : Uuid) :
    Work Completion := do
  let some driver ← select (.driverForUpdate driverId none)
    | throw (.deadlineNotFound ("driver for deadline ".toList ++ deadlineId.text))
  let check ← recordCheck sha256 companyId "FSK".toList result completedOn (some driver.id) none
    method performedById []
  let resolvedCaseId ←
    (if result = resultPassed then maybeResolveOpenCase driver performedById else pure none)
  let nextDue ← orThrow .value (nextFskDue completedOn fskIntervalMonths)
  return (check, resolvedCaseId, nextDue, false)

/-- The HU branch of `complete_deadline`. -/
def completeHu (deadlineId companyId : Uuid) (result : Str) (completedOn : Date)
    (performedById : Option Uuid) (method : Option Str) (vehicleId : Uuid) :
    Work Completion := do
  let some vehicle ← select (.vehicleForUpdate vehicleId)
    | throw (.deadlineNotFound ("vehicle for deadline ".toList ++ deadlineId.text))
  let check ← recordCheck sha256 companyId "HU".toList result completedOn none (some vehicle.id)
    method performedById []
  if result = resultFailedDefects then
    let nextDue ← orThrow .overflow (daysForward completedOn nachpruefungDays)
    return (check, none, nextDue, true)
  else
    let nextDue ← orThrow .value (nextHuDue completedOn vehicle.huIntervalMonths)
    return (check, none, nextDue, false)

/-- The UVV branch of `complete_deadline`: the vehicle row is not locked. -/
def completeUvv (companyId : Uuid) (result : Str) (completedOn : Date)
    (performedById : Option Uuid) (method : Option Str) (vehicleId : Option Uuid) :
    Work Completion := do
  let check ← recordCheck sha256 companyId "UVV".toList result completedOn none vehicleId
    method performedById []
  let nextDue ← orThrow .value (nextUvvDue completedOn)
  return (check, none, nextDue, false)

/-- Record the evidence and compute the successor's due date per kind of the deadline. -/
def completeByKind (deadline : Deadline) (deadlineId companyId : Uuid) (result : Str)
    (completedOn : Date) (performedById : Option Uuid) (method : Option Str) :
    Work Completion :=
  match deadline.kind, deadline.subject with
  | .fsk, .driver driverId =>
      completeFsk sha256 deadlineId companyId result completedOn performedById method driverId
  -- `Driver.id == None` and `Vehicle.id == None` match no row
  | .fsk, .vehicle _ =>
      throw (.deadlineNotFound ("driver for deadline ".toList ++ deadlineId.text))
  | .hu, .vehicle vehicleId =>
      completeHu sha256 deadlineId companyId result completedOn performedById method vehicleId
  | .hu, .driver _ =>
      throw (.deadlineNotFound ("vehicle for deadline ".toList ++ deadlineId.text))
  | .uvv, subject =>
      completeUvv sha256 companyId result completedOn performedById method subject.vehicleId

/-- Complete a deadline, record the evidence and spawn the successor. -/
def completeDeadline (deadlineId companyId : Uuid) (result : Str) (completedOn : Date)
    (performedById : Option Uuid) (method : Option Str) : Work CompletionResult := do
  let some deadline ← select (.deadlineForUpdate deadlineId companyId)
    | throw (.deadlineNotFound deadlineId.text)
  assignDeadline deadline (deadline.completed completedOn)
  let (check, resolvedCaseId, nextDue, isNachpruefung) ←
    completeByKind sha256 deadline deadlineId companyId result completedOn performedById method
  let (successorId, _) ← emit .serverDefaults
  add (.insertDeadline (spawn deadline nextDue isNachpruefung successorId))
  flush
  return ⟨deadline.id, successorId, check.id, resolvedCaseId, isNachpruefung⟩

end Fristenwaechter
