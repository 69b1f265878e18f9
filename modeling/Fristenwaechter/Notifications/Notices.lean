import Fristenwaechter.Notifiers.Templates
import Fristenwaechter.Relay.Enqueueing
import Fristenwaechter.Behaviour.Jobs

/-!
Owns the notices: what E6, the escalation sweep and the reminder sweep put into the
outbox, as template and payload. Every outbox row these three stage is a notice, and
what its renderer reads of it is told once here.
-/

namespace Fristenwaechter

/-- A notice of E6, of the escalation sweep or of the reminder sweep. A reminder carries
the day it was chosen on. -/
inductive Notice where
  | failed (driver : Driver) (deadline : Instant)
  | nag (case : EscalationCase) (driver : Option Driver)
  | breached (case : EscalationCase) (driver : Option Driver)
  | reminder (deadline : Deadline) (today : Date) (token : Str) (display : Int)
      (chosen : reminderNotch deadline.dueOn today = some (token, display))
      (driver : Option Driver) (vehicle : Option Vehicle)

namespace Notice

def template : Notice → Str
  | failed _ _ => "fsk_failed_critical".toList
  | nag _ _ => "escalation_nag".toList
  | breached _ _ => "escalation_breached".toList
  | reminder .. => "deadline_reminder".toList

def payload : Notice → Payload
  | failed driver deadline => e6Context driver deadline
  | nag case driver => case.payload driver
  | breached case driver => case.payload driver
  | reminder deadline _ _ display _ driver vehicle =>
      deadline.payload display (deadline.names driver vehicle)

end Notice

/-! ### What is staged -/

/-- A write whose outbox row, if it inserts one, is a notice. -/
def Write.IsNotice : Write → Prop
  | .insertOutbox row => ∃ notice : Notice, row.template = notice.template ∧
      row.payload = notice.payload
  | _ => True

theorem grants_notices : Grants Write.IsNotice where
  log _ := trivial
  unlocked _ := trivial
  resolved _ := trivial
  completed _ _ := trivial
  successor _ := trivial
  driver _ _ _ _ _ := trivial
  vehicle _ := trivial
  locked _ _ := trivial
  case _ := trivial
  alert _ _ _ _ _ := trivial
  failed _ _ driver deadline _ _ _ := ⟨.failed driver deadline, rfl, rfl⟩
  breached case driver _ _ _ := ⟨.breached case driver, rfl, rfl⟩
  nagged case _ driver _ _ _ := ⟨.nag case driver, rfl, rfl⟩
  reminded deadline today token display chosen driver vehicle _ _ _ :=
    ⟨.reminder deadline today token display chosen driver vehicle, rfl, rfl⟩
  anonymized _ _ _ := trivial
  user _ _ := trivial
  company _ _ := trivial
  outbox _ := trivial
  sessions _ _ := trivial
  invitations _ _ := trivial

/-- **Every transaction but the relay** stages notices. -/
theorem request_notices {sha256 : Str → Str} {validateKennzeichen : Str → Option Str}
    {request : Request} (other : request ≠ .relayOutbox) :
    postgres.Preserves (OnlyEver Write.IsNotice)
      (transaction (request.body sha256 validateKennzeichen)) :=
  request_only grants_notices other

/-! ### What the renderers read -/

/-- A text as `_g` shows it. -/
def orDash (text : Str) : Str :=
  if text = [] then dash else text

theorem g_str {repr : Json → Str} {payload : Payload} {key : String} {default text : Str}
    (found : payload.lookup key.toList = some (.str text)) :
    g repr payload key default = if text = [] then default else text := by
  rw [g, found]
  cases text <;> rfl

namespace Notice

def name : Notice → Str
  | failed driver _ => orDash driver.fullName
  | nag _ driver => orDash (driver.elim dash Driver.fullName)
  | breached _ driver => orDash (driver.elim dash Driver.fullName)
  | reminder deadline _ _ _ _ driver vehicle =>
      match deadline.subject with
      | .driver _ => orDash (driver.elim dash Driver.fullName)
      | .vehicle _ => orDash (vehicle.elim dash Vehicle.kennzeichen)

/-- The day the notice shows. -/
def day : Notice → Str
  | failed _ deadline => orDash (germanDay deadline)
  | nag case _ => orDash (germanDay case.deadlineAt)
  | breached case _ => orDash (germanDay case.deadlineAt)
  | reminder deadline .. => orDash deadline.dueOn.german

theorem driver_fields {case : EscalationCase} {driver : Option Driver} {repr : Json → Str} :
    g repr (case.payload driver) "driver_name" dash = orDash (driver.elim dash Driver.fullName) ∧
      g repr (case.payload driver) "deadline" dash = orDash (germanDay case.deadlineAt) :=
  ⟨g_str rfl, g_str rfl⟩

theorem reminder_fields {deadline : Deadline} {display : Int} {driver : Option Driver}
    {vehicle : Option Vehicle} {repr : Json → Str} :
    let payload := deadline.payload display (deadline.names driver vehicle)
    g repr payload "kind_label" (g repr payload "kind" dash) = deadline.kind.label ∧
      g repr payload "due_date" dash = orDash deadline.dueOn.german ∧
      payload.lookup "notch".toList = some (.int display) := by
  refine ⟨(g_str rfl).trans ?_, g_str rfl, rfl⟩
  cases deadline.kind <;> rfl

theorem reminder_name {deadline : Deadline} {display : Int} {driver : Option Driver}
    {vehicle : Option Vehicle} {repr : Json → Str} :
    g repr (deadline.payload display (deadline.names driver vehicle)) "subject_name" dash =
      match deadline.subject with
      | .driver _ => orDash (driver.elim dash Driver.fullName)
      | .vehicle _ => orDash (vehicle.elim dash Vehicle.kennzeichen) := by
  unfold Deadline.names
  cases deadline.subject with
  | driver driverId => exact g_str rfl
  | vehicle vehicleId => exact g_str rfl

end Notice

end Fristenwaechter
