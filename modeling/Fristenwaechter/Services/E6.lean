import Fristenwaechter.UnitOfWork

/-!
Owns `app/services/e6.py`: the hard lock, the OPEN escalation case, the CRITICAL
alert and the broadcast of a failed Führerscheinkontrolle, and the savepoint around
them that turns a duplicate case into a replay.
-/

namespace Fristenwaechter

def escalationDays : Int := 7

def lockReasonFsk : Str :=
  "FSK_FAILED".toList

structure Recipient where
  email : Option Str
  phoneE164 : Option Str
deriving DecidableEq

structure E6Result where
  caseId : Uuid
  /-- `none`: idempotent replay, nothing new written. -/
  alertId : Option Uuid
  outboxMessageIds : List Uuid
  alreadyOpen : Bool

/-- The non-empty contacts of a recipient, each with its channel. -/
def Recipient.contacts (recipient : Recipient) : List (OutboxChannel × Str) :=
  (match recipient.email with
    | some (c :: rest) => [(.email, c :: rest)]
    | _ => []) ++
  match recipient.phoneE164 with
    | some (c :: rest) => [(.sms, c :: rest)]
    | _ => []

/-- The attributes `handle_failed_license_check` sets on the driver. -/
def Driver.lockedAtInstant (driver : Driver) (now : Instant) : Driver :=
  { driver with
    isAuthorizedToDrive := false
    lockReason := some lockReasonFsk
    lockedAt := some now }

def Driver.fullName (driver : Driver) : Str :=
  driver.firstName ++ ' ' :: driver.lastName

/-- The new OPEN case. -/
def EscalationCase.opened (id : Uuid) (createdAt : Instant) (companyId driverId : Uuid)
    (deadline : Instant) : EscalationCase where
  id := id
  createdAt := createdAt
  companyId := companyId
  driverId := driverId
  status := .open
  deadlineAt := deadline
  resolvedAt := none
  resolvedById := none
  lastNagOn := none

def e6AlertMessage (driver : Driver) (deadline : Instant) : Str :=
  "Führerscheinkontrolle FEHLGESCHLAGEN: ".toList ++ driver.fullName ++
    ". Fahrer mit sofortiger Wirkung gesperrt. ".toList ++
    "Weiterer Fahrzeugeinsatz begründet das Risiko einer Strafbarkeit ".toList ++
    "nach § 21 Abs. 1 Nr. 2 StVG (Halterverantwortung). ".toList ++
    "Frist zur Klärung: ".toList ++ germanDay deadline ++ ['.']

/-- The immutable CRITICAL alert. -/
def e6Alert (id companyId caseId : Uuid) (driver : Driver) (deadline : Instant) :
    SystemAlert where
  id := id
  companyId := companyId
  severity := .critical
  code := "FSK_FAILED_LOCK".toList
  driverId := some driver.id
  escalationCaseId := some caseId
  message := e6AlertMessage driver deadline

/-- The payload of the broadcast. -/
def e6Context (driver : Driver) (deadline : Instant) : List (Str × Json) :=
  [("driver_name".toList, .str driver.fullName),
    ("deadline".toList, .str (germanDay deadline)),
    ("case_path".toList, .str ("/drivers/".toList ++ driver.id.text ++ "/escalation".toList))]

/-- `f"e6:{trigger_check_id}:{channel}:{address}"`. -/
def e6Key (triggerCheckId : Uuid) (contact : OutboxChannel × Str) : Str :=
  "e6:".toList ++ triggerCheckId.text ++ ':' :: (contact.1.text ++ ':' :: contact.2)

/-- One message of the broadcast. -/
def e6Message (companyId triggerCheckId : Uuid) (context : List (Str × Json))
    (contact : OutboxChannel × Str) (id : Uuid) (createdAt : Instant) : OutboxMessage :=
  .staged id createdAt companyId contact.1 contact.2 "fsk_failed_critical".toList context 0
    (e6Key triggerCheckId contact)

/-- `db_session.add_all(messages)`. -/
def addMessages (companyId triggerCheckId : Uuid) (context : List (Str × Json)) :
    List (OutboxChannel × Str) → Work (List Uuid)
  | [] => return []
  | contact :: rest => do
      let (id, createdAt) ← emit .serverDefaults
      add (.insertOutbox (e6Message companyId triggerCheckId context contact id createdAt))
      return id :: (← addMessages companyId triggerCheckId context rest)

/-- Atomically lock the driver and stage the § 21 StVG escalation. -/
def handleFailedLicenseCheck (driverId companyId triggerCheckId : Uuid)
    (recipients : List Recipient) : Work E6Result := do
  let some driver ← select (.driverForUpdate driverId (some companyId))
    | throw (.driverNotFound driverId)
  let now ← nowBerlin
  let deadline ← orThrow .overflow (escalationDeadline now escalationDays)
  assignDriver driver (driver.lockedAtInstant now)
  let (caseId, createdAt) ← emit .serverDefaults
  add (.insertCase (.opened caseId createdAt companyId driver.id deadline))
  -- an IntegrityError is raised as it is: `runE6` rolls back and translates it
  tryCatch flush fun error =>
    match error with
    | .staleData => throw (.staleDriverState driverId)
    | other => throw other
  let (alertId, _) ← emit .serverDefaults
  add (.insertAlert (e6Alert alertId companyId caseId driver deadline))
  let ids ← addMessages companyId triggerCheckId (e6Context driver deadline)
    (recipients.flatMap Recipient.contacts)
  flush
  return ⟨caseId, some alertId, ids, false⟩

/-- Public entry point: the pipeline in a SAVEPOINT, so that the IntegrityError of a
duplicate open case degrades to an idempotent success. -/
def runE6 (driverId companyId triggerCheckId : Uuid) (recipients : List Recipient) :
    Work E6Result :=
  tryCatch (nested (handleFailedLicenseCheck driverId companyId triggerCheckId recipients))
    fun error => do
      match error with
      | .integrity _ =>
          -- not the duplicate-case race after all: the error is raised again
          let some existing ← select (.openCase driverId) | throw error
          return ⟨existing.id, none, [], true⟩
      | other => throw other

end Fristenwaechter
