import Fristenwaechter.Jobs.Dsgvo
import Fristenwaechter.Jobs.Relay
import Fristenwaechter.Jobs.Sweeps
import Fristenwaechter.Web.Vehicles

/-!
Owns the whole system: the requests, each a transaction of its own, and the engine
that serves them. The four service calls stand for callers that use a service
function as its own transaction.
-/

namespace Fristenwaechter

open Library (Engine Laws)

inductive Request where
  | createDriver (user : AccountUser) (data : Form)
  | createVehicle (user : AccountUser) (data : Form)
  | recordDriverCheck (user : AccountUser) (driverId : Uuid) (data : Form)
  | recordVehicleCheck (user : AccountUser) (vehicleId : Uuid) (data : Form)
  | runE6 (tenant : Option Uuid) (driverId companyId triggerCheckId : Uuid)
      (recipients : List Recipient)
  | completeDeadline (tenant : Option Uuid) (deadlineId companyId : Uuid) (result : Str)
      (completedOn : Date) (performedById : Option Uuid) (method : Option Str)
  /-- The caller has loaded the driver, with or without its row lock. -/
  | maybeResolveOpenCase (tenant : Option Uuid) (driverId : Uuid) (locking : Bool)
      (resolvedById : Option Uuid)
  | sweepEscalations
  | sendReminders
  | relayOutbox
  | anonymizeExpiredDrivers
  | pruneOldOutbox
  | tombstoneDeletedCompanies

/-- The tenant a request is pinned to; the jobs bypass row-level security. -/
def Request.tenant : Request → Option Uuid
  | createDriver user _ => some user.companyId
  | createVehicle user _ => some user.companyId
  | recordDriverCheck user _ _ => some user.companyId
  | recordVehicleCheck user _ _ => some user.companyId
  | runE6 tenant _ _ _ _ => tenant
  | completeDeadline tenant _ _ _ _ _ _ => tenant
  | maybeResolveOpenCase tenant _ _ _ => tenant
  | _ => none

inductive Outcome where
  | response (response : Response)
  | e6 (result : E6Result)
  | completion (result : CompletionResult)
  | resolved (caseId : Option Uuid)
  | swept
  | counted (count : Nat)

variable (sha256 : Str → Str) (validateKennzeichen : Str → Option Str)

/-- A service call on a loaded driver. -/
def resolveFor (driverId : Uuid) (locking : Bool) (resolvedById : Option Uuid) :
    Work (Option Uuid) := do
  let some driver ← if locking then select (.driverForUpdate driverId none) else getDriver driverId
    | return none
  maybeResolveOpenCase driver resolvedById

def Request.body : Request → Work Outcome
  | createDriver user data => return .response (← Fristenwaechter.createDriver user data)
  | createVehicle user data =>
      return .response (← Fristenwaechter.createVehicle validateKennzeichen user data)
  | recordDriverCheck user driverId data =>
      return .response (← Fristenwaechter.recordDriverCheck sha256 user driverId data)
  | recordVehicleCheck user vehicleId data =>
      return .response (← Fristenwaechter.recordVehicleCheck sha256 user vehicleId data)
  | runE6 _ driverId companyId triggerCheckId recipients =>
      return .e6 (← Fristenwaechter.runE6 driverId companyId triggerCheckId recipients)
  | completeDeadline _ deadlineId companyId result completedOn performedById method =>
      return .completion (← Fristenwaechter.completeDeadline sha256 deadlineId companyId result
        completedOn performedById method)
  | maybeResolveOpenCase _ driverId locking resolvedById =>
      return .resolved (← resolveFor driverId locking resolvedById)
  | sweepEscalations => do
      Fristenwaechter.sweepEscalations
      return .swept
  | sendReminders => do
      Fristenwaechter.sendReminders
      return .swept
  | relayOutbox => do
      Fristenwaechter.relayOutbox
      return .swept
  | anonymizeExpiredDrivers => return .counted (← Fristenwaechter.anonymizeExpiredDrivers)
  | pruneOldOutbox => return .counted (← Fristenwaechter.pruneOldOutbox)
  | tombstoneDeletedCompanies => return .counted (← Fristenwaechter.tombstoneDeletedCompanies)

def system : Engine World Memory Connection Statement Answer Env Error Ref Request Outcome :=
  serving (fun request => transaction (request.body sha256 validateKennzeichen)) Request.tenant

theorem system_laws : Laws (system sha256 validateKennzeichen) readCommitted :=
  serving_laws _ _

end Fristenwaechter
