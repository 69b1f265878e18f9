import Fristenwaechter.Web.Drivers

/-!
Owns the POST handlers of `app/web/vehicles.py`: the creation of a vehicle with its
first HU and UVV deadlines and the recording of an inspection. The validation of the
plate is a parameter.
-/

namespace Fristenwaechter

variable (sha256 : Str → Str) (validateKennzeichen : Str → Option Str)

/-- `text or None`. -/
def nonEmpty : Option Str → Option Str
  | some (c :: rest) => some (c :: rest)
  | _ => none

/-- `POST /vehicles`. -/
def createVehicle (user : AccountUser) (data : Form) : Work Response := do
  if user.role = .viewer then throw .forbidden
  match validateKennzeichen ((data.get "kennzeichen".toList).getD []) with
  | none => return .page 400
  | some kennzeichen =>
      let firstReg := parseDate (data.get "first_registration".toList)
      let interval :=
        (parseInt ((data.get "hu_interval_months".toList).getD "24".toList)).getD 24
      let (vehicleId, _) ← emit .serverDefaults
      add (.insertVehicle
        { id := vehicleId
          companyId := user.companyId
          kennzeichen := kennzeichen
          make := nonEmpty (data.get "make".toList)
          model := nonEmpty (data.get "model".toList)
          firstRegistration := firstReg
          huIntervalMonths := interval })
      flush
      let anchor ← dateOrToday firstReg
      let huDue ← orThrow .value (firstHuDue anchor firstHuIntervalMonths)
      let (huId, _) ← emit .serverDefaults
      add (.insertDeadline (.opened huId user.companyId .hu (.vehicle vehicleId) huDue))
      let uvvDue ← orThrow .value (firstUvvDue anchor)
      let (uvvId, _) ← emit .serverDefaults
      add (.insertDeadline (.opened uvvId user.companyId .uvv (.vehicle vehicleId) uvvDue))
      return .page 200

/-- `POST /vehicles/{vehicle_id}/checks`. -/
def recordVehicleCheck (user : AccountUser) (vehicleId : Uuid) (data : Form) :
    Work Response := do
  if user.role = .viewer then throw .forbidden
  let kind := (data.get "kind".toList).getD "HU".toList
  let result := (data.get "result".toList).getD resultPassed
  let performedOn ← dateOrToday (parseDate (data.get "performed_on".toList))
  let kindEnum := if kind = "HU".toList then DeadlineKind.hu else .uvv
  match ← select (.openDeadline (.vehicle vehicleId) kindEnum) with
  | some openDl =>
      let _ ← completeDeadline sha256 openDl.id user.companyId result performedOn
        (some user.id) (some "WERKSTATT".toList)
  | none =>
      let _ ← recordCheck sha256 user.companyId kind result performedOn none (some vehicleId)
        (some "WERKSTATT".toList) (some user.id) []
  return .redirect

end Fristenwaechter
