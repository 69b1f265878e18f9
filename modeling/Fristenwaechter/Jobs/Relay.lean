import Fristenwaechter.UnitOfWork

/-!
Owns `app/jobs/relay.py`: one relay cycle with the bookkeeping of successes and
failures.
-/

namespace Fristenwaechter

open Library.Program (forEach)

/-- `BACKOFF`: attempt n waits this many seconds; exhausting it is a dead letter. -/
def backoff : List Int :=
  [0, 60, 300, 1800, 7200]

/-- `BATCH_SIZE`. -/
def batchSize : Nat := 50

/-- The alert of a dead letter. -/
def undeliverableAlert (id : Uuid) (message : OutboxMessage) (attempts : Nat) : SystemAlert where
  id := id
  companyId := message.companyId
  severity := .critical
  code := "NOTIFICATION_UNDELIVERABLE".toList
  driverId := none
  escalationCaseId := none
  message := "Zustellung fehlgeschlagen (".toList ++ message.channel.text ++ " an ".toList ++
    message.recipient ++ ") nach ".toList ++ decimal attempts ++
    " Versuchen. Bitte Kontaktdaten prüfen.".toList

def OutboxMessage.failed (message : OutboxMessage) (error : Str) : OutboxMessage :=
  { message with
    attempts := message.attempts + 1
    lastError := some (error.take 500) }

/-- `_record_failure`. The attempts change, so the UPDATE of the row is always due. -/
def recordFailure (row : OutboxMessage) (error : Str) : Work Unit := do
  let failed := row.failed error
  if backoff.length ≤ failed.attempts then
    let now ← nowBerlin
    add (.updateOutbox row { failed with deadLetteredAt := some now })
    let (alertId, _) ← emit .serverDefaults
    add (.insertAlert (undeliverableAlert alertId row failed.attempts))
  else
    let delay ← orThrow .index backoff[failed.attempts]?
    let now ← nowBerlin
    add (.updateOutbox row { failed with nextAttemptAt := plusSeconds now delay })

/-- One claimed row of a cycle. -/
def relayRow (row : OutboxMessage) : Work Unit := do
  match ← emit (.deliver row) with
  | .error error => recordFailure row error
  | .ok messageId =>
      let now ← nowBerlin
      add (.updateOutbox row
        { row with sentAt := some now, providerMessageId := some messageId })

/-- One relay cycle. -/
def relayOutbox : Work Unit := do
  let now ← nowBerlin
  let rows ← select (.dueOutbox now batchSize)
  forEach rows relayRow

end Fristenwaechter
