import Fristenwaechter.Dates
import Fristenwaechter.Json
import Fristenwaechter.Library.Table

/-!
Owns the rows of `app/models.py`: one structure per table with the columns that
the modelled functions read or write, under the names of the mapped classes. The
check constraint of `deadline` (exactly one subject) is the type `Subject`.

Enumerations are inductive types; `text` gives the strings they are stored as.
-/

namespace Fristenwaechter

open Library (Keyed)

/-! ### Tenancy and users -/

structure Company where
  id : Uuid
  name : Str
  driverRetentionMonths : Int
  deletionRequestedAt : Option Instant
  deletedAt : Option Instant
deriving DecidableEq

inductive Role where
  | owner
  | manager
  | viewer
deriving DecidableEq

structure AccountUser where
  id : Uuid
  companyId : Uuid
  email : Str
  role : Role
  phoneE164 : Option Str
  isActive : Bool
  passwordHash : Option Str
deriving DecidableEq

/-- `user_session`, as far as the company tombstone touches it. -/
structure UserSession where
  id : Uuid
  accountUserId : Uuid
  companyId : Uuid
  tokenHash : Str
  expiresAt : Instant
  revokedAt : Option Instant
deriving DecidableEq

/-- `invitation`, as far as the company tombstone touches it. -/
structure Invitation where
  id : Uuid
  companyId : Uuid
  email : Str
  role : Role
  tokenHash : Str
  expiresAt : Instant
  acceptedAt : Option Instant
deriving DecidableEq

/-! ### Drivers, vehicles and deadlines -/

/-- `driver`; `versionId` is the mapper's `version_id_col`. -/
structure Driver where
  id : Uuid
  companyId : Uuid
  firstName : Str
  lastName : Str
  employmentStart : Option Date
  employmentEnd : Option Date
  anonymizedAt : Option Instant
  isAuthorizedToDrive : Bool
  lockReason : Option Str
  lockedAt : Option Instant
  versionId : Nat
deriving DecidableEq

structure Vehicle where
  id : Uuid
  companyId : Uuid
  kennzeichen : Str
  make : Option Str
  model : Option Str
  firstRegistration : Option Date
  huIntervalMonths : Int
deriving DecidableEq

inductive DeadlineKind where
  | hu
  | uvv
  | fsk
deriving DecidableEq

def DeadlineKind.text : DeadlineKind → Str
  | hu => "HU".toList
  | uvv => "UVV".toList
  | fsk => "FSK".toList

inductive DeadlineStatus where
  | «open»
  | completed
  | superseded
deriving DecidableEq

/-- `ck_deadline_one_subject`: a driver or a vehicle, never both. -/
inductive Subject where
  | driver (id : Uuid)
  | vehicle (id : Uuid)
deriving DecidableEq

/-- The `driver_id` column. -/
def Subject.driverId : Subject → Option Uuid
  | driver id => some id
  | vehicle _ => none

/-- The `vehicle_id` column. -/
def Subject.vehicleId : Subject → Option Uuid
  | driver _ => none
  | vehicle id => some id

structure Deadline where
  id : Uuid
  companyId : Uuid
  kind : DeadlineKind
  subject : Subject
  dueOn : Date
  status : DeadlineStatus
  completedOn : Option Date
  isNachpruefung : Bool
deriving DecidableEq

/-! ### Escalation cases and alerts -/

inductive EscalationStatus where
  | «open»
  | resolvedPassed
  | resolvedRemoved
  | breached
deriving DecidableEq

structure EscalationCase where
  id : Uuid
  createdAt : Instant
  companyId : Uuid
  driverId : Uuid
  status : EscalationStatus
  deadlineAt : Instant
  resolvedAt : Option Instant
  resolvedById : Option Uuid
  lastNagOn : Option Date
deriving DecidableEq

inductive AlertSeverity where
  | info
  | warning
  | critical
deriving DecidableEq

structure SystemAlert where
  id : Uuid
  companyId : Uuid
  severity : AlertSeverity
  code : Str
  driverId : Option Uuid
  escalationCaseId : Option Uuid
  message : Str
deriving DecidableEq

/-! ### Transactional outbox -/

inductive OutboxChannel where
  | email
  | sms
deriving DecidableEq

def OutboxChannel.text : OutboxChannel → Str
  | email => "EMAIL".toList
  | sms => "SMS".toList

structure OutboxMessage where
  id : Uuid
  createdAt : Instant
  companyId : Uuid
  channel : OutboxChannel
  recipient : Str
  template : Str
  payload : List (Str × Json)
  priority : Nat
  dedupKey : Str
  attempts : Nat
  nextAttemptAt : Instant
  sentAt : Option Instant
  deadLetteredAt : Option Instant
  lastError : Option Str
  providerMessageId : Option Str

/-- A new row with its column defaults. -/
def OutboxMessage.staged (id : Uuid) (createdAt : Instant) (companyId : Uuid)
    (channel : OutboxChannel) (recipient template : Str) (payload : List (Str × Json))
    (priority : Nat) (dedupKey : Str) : OutboxMessage where
  id := id
  createdAt := createdAt
  companyId := companyId
  channel := channel
  recipient := recipient
  template := template
  payload := payload
  priority := priority
  dedupKey := dedupKey
  attempts := 0
  nextAttemptAt := createdAt
  sentAt := none
  deadLetteredAt := none
  lastError := none
  providerMessageId := none

/-! ### Compliance evidence -/

structure ComplianceCheckLog where
  id : Uuid
  createdAt : Instant
  companyId : Uuid
  driverId : Option Uuid
  kind : Str
  result : Str
  method : Option Str
  performedById : Option Uuid
  performedOn : Date
  params : List (Str × Json)
  prevHash : Option Str
  entryHash : Str

/-- The rows of one evidence chain: a driver's by `driver_id`, a vehicle's by the
absent `driver_id` and `params.vehicle_id`. -/
def ComplianceCheckLog.about (entry : ComplianceCheckLog) : Subject → Bool
  | .driver id => entry.driverId = some id
  | .vehicle id => entry.driverId.isNone && Json.memberIs "vehicle_id".toList id.text entry.params

theorem ComplianceCheckLog.about_vehicle {entry : ComplianceCheckLog} {id : Uuid}
    {params : List (Str × Json)} (noDriver : entry.driverId = none)
    (isParams : entry.params = Json.setMember "vehicle_id".toList (.str id.text) params) :
    entry.about (.vehicle id) = true := by
  simp only [about, noDriver, isParams, Json.memberIs_setMember, Option.isNone_none, Bool.and_self]

instance : Keyed Company Uuid := ⟨Company.id⟩
instance : Keyed AccountUser Uuid := ⟨AccountUser.id⟩
instance : Keyed UserSession Uuid := ⟨UserSession.id⟩
instance : Keyed Invitation Uuid := ⟨Invitation.id⟩
instance : Keyed Driver Uuid := ⟨Driver.id⟩
instance : Keyed Vehicle Uuid := ⟨Vehicle.id⟩
instance : Keyed Deadline Uuid := ⟨Deadline.id⟩
instance : Keyed EscalationCase Uuid := ⟨EscalationCase.id⟩
instance : Keyed SystemAlert Uuid := ⟨SystemAlert.id⟩
instance : Keyed OutboxMessage Uuid := ⟨OutboxMessage.id⟩
instance : Keyed ComplianceCheckLog Uuid := ⟨ComplianceCheckLog.id⟩

@[simp] theorem Company.key_eq (row : Company) : Keyed.key row = row.id := rfl
@[simp] theorem AccountUser.key_eq (row : AccountUser) : Keyed.key row = row.id := rfl
@[simp] theorem UserSession.key_eq (row : UserSession) : Keyed.key row = row.id := rfl
@[simp] theorem Invitation.key_eq (row : Invitation) : Keyed.key row = row.id := rfl
@[simp] theorem Driver.key_eq (row : Driver) : Keyed.key row = row.id := rfl
@[simp] theorem Vehicle.key_eq (row : Vehicle) : Keyed.key row = row.id := rfl
@[simp] theorem Deadline.key_eq (row : Deadline) : Keyed.key row = row.id := rfl
@[simp] theorem EscalationCase.key_eq (row : EscalationCase) : Keyed.key row = row.id := rfl
@[simp] theorem SystemAlert.key_eq (row : SystemAlert) : Keyed.key row = row.id := rfl
@[simp] theorem OutboxMessage.key_eq (row : OutboxMessage) : Keyed.key row = row.id := rfl
@[simp] theorem ComplianceCheckLog.key_eq (row : ComplianceCheckLog) : Keyed.key row = row.id := rfl

end Fristenwaechter
