import Fristenwaechter.Services.Checks
import Fristenwaechter.Services.Recipients
import Fristenwaechter.Web.Forms

/-!
Owns the POST handlers of `app/web/drivers.py`: the creation of a driver with its
first FSK deadline and the recording of a Führerscheinkontrolle.
-/

namespace Fristenwaechter

variable (sha256 : Str → Str)

/-- A new driver with its column defaults. -/
def Driver.created (id companyId : Uuid) (firstName lastName : Str)
    (employmentStart : Option Date) : Driver where
  id := id
  companyId := companyId
  firstName := firstName
  lastName := lastName
  employmentStart := employmentStart
  employmentEnd := none
  anonymizedAt := none
  isAuthorizedToDrive := true
  lockReason := none
  lockedAt := none
  versionId := 1

/-- A new OPEN deadline. -/
def Deadline.opened (id companyId : Uuid) (kind : DeadlineKind) (subject : Subject)
    (dueOn : Date) : Deadline where
  id := id
  companyId := companyId
  kind := kind
  subject := subject
  dueOn := dueOn
  status := .open
  completedOn := none
  isNachpruefung := false

/-- `POST /drivers`. -/
def createDriver (user : AccountUser) (data : Form) : Work Response := do
  if user.role = .viewer then throw .forbidden
  let first := strip ((data.get "first_name".toList).getD [])
  let last := strip ((data.get "last_name".toList).getD [])
  if first.isEmpty || last.isEmpty then return .page 400
  let start := parseDate (data.get "employment_start".toList)
  let (driverId, _) ← emit .serverDefaults
  add (.insertDriver (.created driverId user.companyId first last start))
  flush
  let anchor ← dateOrToday start
  let dueOn ← orThrow .value (firstFskDue anchor fskIntervalMonths)
  let (deadlineId, _) ← emit .serverDefaults
  add (.insertDeadline (.opened deadlineId user.companyId .fsk (.driver driverId) dueOn))
  return .page 200

/-- The FAILED branch of `record_driver_check`: evidence first, then E6. -/
def recordFailedCheck (user : AccountUser) (driverId : Uuid) (performedOn : Date) :
    Work Unit := do
  let _ ← recordCheck sha256 user.companyId "FSK".toList "FAILED".toList performedOn
    (some driverId) none (some "SICHT".toList) (some user.id) []
  let recipients ← resolveRecipients user.companyId
  let triggerCheckId ← emit .uuid4
  let _ ← runE6 driverId user.companyId triggerCheckId recipients

/-- The other branch of `record_driver_check`: complete the open FSK deadline, or
record an ad-hoc pass and clear any lock. -/
def recordPassedCheck (user : AccountUser) (driver : Driver) (driverId : Uuid)
    (performedOn : Date) : Work Unit := do
  match ← select (.openDeadline (.driver driverId) .fsk) with
  | some openFsk =>
      let _ ← completeDeadline sha256 openFsk.id user.companyId resultPassed performedOn
        (some user.id) (some "SICHT".toList)
  | none =>
      let _ ← recordCheck sha256 user.companyId "FSK".toList "PASSED".toList performedOn
        (some driverId) none (some "SICHT".toList) (some user.id) []
      let _ ← maybeResolveOpenCase driver (some user.id)

/-- `POST /drivers/{driver_id}/checks`. -/
def recordDriverCheck (user : AccountUser) (driverId : Uuid) (data : Form) : Work Response := do
  if user.role = .viewer then throw .forbidden
  let result := (data.get "result".toList).getD []
  let performedOn ← dateOrToday (parseDate (data.get "performed_on".toList))
  let some driver ← getDriver driverId | return .page 404
  if result = resultFailed then
    recordFailedCheck sha256 user driverId performedOn
  else
    recordPassedCheck sha256 user driver driverId performedOn
  return .redirect

end Fristenwaechter
