import Fristenwaechter.Services.Recipients

/-!
Owns `app/jobs/sweeps.py`: the daily escalation sweep and the reminder sweep. Both
only enqueue; the heartbeat after their commit is not modelled.
-/

namespace Fristenwaechter

open Library.Program (forEach)

/-- `REMINDER_NOTCHES`, most urgent first. -/
def reminderNotches : List Nat :=
  [0, 7, 30, 90]

/-- `_KIND_LABEL`. -/
def DeadlineKind.label : DeadlineKind → Str
  | hu => "Hauptuntersuchung (HU/AU)".toList
  | uvv => "UVV-Pruefung".toList
  | fsk => "Fuehrerscheinkontrolle".toList

/-- `_enqueue_unique`: insert an outbox row unless its dedup key already exists. -/
def enqueueUnique (companyId : Uuid) (channel : OutboxChannel) (recipient template : Str)
    (payload : List (Str × Json)) (priority : Nat) (dedupKey : Str) : Work Bool := do
  let taken : Bool ← select (.outboxKey dedupKey)
  if taken then return false
  let (id, createdAt) ← emit .serverDefaults
  add (.insertOutbox
    (.staged id createdAt companyId channel recipient template payload priority dedupKey))
  return true

/-- `_channels`. -/
def channels (recipient : Recipient) : List (OutboxChannel × Str) :=
  recipient.contacts

/-- Enqueue one message for every contact of the recipients, under keys that start
with `event`. -/
def enqueueForAll (companyId : Uuid) (recipients : List Recipient) (template : Str)
    (payload : List (Str × Json)) (priority : Nat) (event : Str) : Work Unit :=
  forEach (recipients.flatMap channels) fun contact => do
    let _ ← enqueueUnique companyId contact.1 contact.2 template payload priority
      (event ++ ':' :: (contact.1.text ++ ':' :: contact.2))

/-! ### Escalation sweep -/

/-- `f"esc:{case.id}:breached"`. -/
def breachedEvent (caseId : Uuid) : Str :=
  "esc:".toList ++ caseId.text ++ ":breached".toList

/-- `f"esc:{case.id}:nag:{today}"`. -/
def nagEvent (caseId : Uuid) (today : Date) : Str :=
  "esc:".toList ++ caseId.text ++ ":nag:".toList ++ today.isoformat

def EscalationCase.breach (case : EscalationCase) : CaseChange where
  loaded := case
  current := { case with status := .breached }
  stays := by simp

def EscalationCase.nagged (case : EscalationCase) (today : Date) : CaseChange where
  loaded := case
  current := { case with lastNagOn := some today }
  stays := fun isOpen => isOpen

/-- One OPEN case of the sweep. -/
def sweepCase (now : Instant) (today : Date) (case : EscalationCase) : Work Unit := do
  let driver ← getDriver case.driverId
  let recipients ← resolveRecipients case.companyId
  let context : List (Str × Json) :=
    [("driver_name".toList, .str (driver.elim ['—'] Driver.fullName)),
      ("deadline".toList, .str (germanDay case.deadlineAt)),
      ("case_path".toList,
        .str ("/drivers/".toList ++ case.driverId.text ++ "/escalation".toList)),
      ("company_id".toList, .str case.companyId.text)]
  if now > case.deadlineAt then
    add (.updateCase case.breach)
    enqueueForAll case.companyId recipients "escalation_breached".toList context 0
      (breachedEvent case.id)
  else if case.lastNagOn ≠ some today then
    add (.updateCase (case.nagged today))
    enqueueForAll case.companyId recipients "escalation_nag".toList context 50
      (nagEvent case.id today)

/-- Nag OPEN cases once per day; breach those past their deadline. -/
def sweepEscalations : Work Unit := do
  let now ← nowBerlin
  let today ← todayBerlin
  emit .begin
  let cases ← select .openCasesForUpdate
  forEach cases (sweepCase now today)

/-! ### Reminder sweep -/

/-- `reminder_notch`: the dedup token and the display notch of the single applicable
reminder. -/
def reminderNotch (dueOn today : Date) : Option (Str × Int) :=
  let d := daysUntil dueOn today
  if 0 ≤ d then
    (reminderNotches.find? fun n : Nat => d ≤ (n : Int)).map fun n => (decimal n, (n : Int))
  else
    let (year, week) := today.isoWeek
    some ("ov".toList ++ decimal year ++ 'W' :: twoDigits week, -1)

/-- `_subject_context`. -/
def subjectContext (deadline : Deadline) : Work (List (Str × Json)) :=
  match deadline.subject with
  | .driver driverId => do
      let driver ← getDriver driverId
      return [("subject_name".toList, .str (driver.elim ['—'] Driver.fullName)),
        ("deep_link".toList, .str ("/drivers/".toList ++ driverId.text ++ "/history".toList))]
  | .vehicle vehicleId => do
      let vehicle ← getVehicle vehicleId
      return [("subject_name".toList, .str (vehicle.elim ['—'] Vehicle.kennzeichen)),
        ("deep_link".toList, .str ("/vehicles/".toList ++ vehicleId.text ++ "/history".toList))]

/-- One OPEN deadline of the reminder sweep. -/
def remind (today : Date) (deadline : Deadline) : Work Unit :=
  match reminderNotch deadline.dueOn today with
  | none => pure ()
  | some (token, display) => do
      let subject ← subjectContext deadline
      let recipients ← resolveRecipients deadline.companyId
      let payload : List (Str × Json) :=
        [("company_id".toList, .str deadline.companyId.text),
          ("kind".toList, .str deadline.kind.text),
          ("kind_label".toList, .str deadline.kind.label),
          ("due_date".toList, .str deadline.dueOn.german),
          ("notch".toList, .int display)] ++ subject
      enqueueForAll deadline.companyId recipients "deadline_reminder".toList payload 100
        ("rem:".toList ++ deadline.id.text ++ ':' :: token)

/-- Threshold sweep over OPEN deadlines. -/
def sendReminders : Work Unit := do
  let today ← todayBerlin
  emit .begin
  let deadlines ← select .openDeadlines
  forEach deadlines (remind today)

end Fristenwaechter
