import Fristenwaechter.Behaviour.Grants
import Fristenwaechter.Notifications.Occasions

/-!
Owns what every transaction but the relay does to the outbox: it stages rows under the
keys of their occasions or deletes rows, and it raises no alert about an undeliverable
notification.
-/

namespace Fristenwaechter

/-- A row that the relay has not touched. -/
structure OutboxMessage.Fresh (row : OutboxMessage) : Prop where
  attempts : row.attempts = 0
  sentAt : row.sentAt = none
  deadLetteredAt : row.deadLetteredAt = none
  providerMessageId : row.providerMessageId = none

theorem OutboxMessage.staged_fresh (id : Uuid) (createdAt : Instant) (companyId : Uuid)
    (channel : OutboxChannel) (recipient template : Str) (payload : List (Str × Json))
    (priority : Nat) (dedupKey : Str) :
    (OutboxMessage.staged id createdAt companyId channel recipient template payload priority
      dedupKey).Fresh :=
  ⟨rfl, rfl, rfl, rfl⟩

def undeliverableCode : Str :=
  "NOTIFICATION_UNDELIVERABLE".toList

/-- A write that leaves the delivery of messages alone. -/
def Write.Enqueues : Write → Prop
  | .insertOutbox row => row.Fresh
  | .updateOutbox _ _ => False
  | .insertAlert row => row.code ≠ undeliverableCode
  | _ => True

/-- A write of a transaction other than the relay's. -/
def Write.Requested : Write → Prop
  | .insertOutbox row =>
      ∃ (occasion : Occasion) (contact : OutboxChannel × Str) (id : Uuid) (createdAt : Instant)
        (companyId : Uuid) (payload : List (Str × Json)) (priority : Nat),
        row = .staged id createdAt companyId contact.1 contact.2 occasion.template payload priority
          (occasion.key contact)
  | .updateOutbox _ _ => False
  | .insertAlert row => row.code ≠ undeliverableCode
  | _ => True

theorem Write.Requested.enqueues : ∀ write, Write.Requested write → write.Enqueues := by
  intro write requested
  cases write with
  | insertOutbox row =>
      obtain ⟨occasion, contact, id, createdAt, companyId, payload, priority, rfl⟩ := requested
      exact OutboxMessage.staged_fresh ..
  | _ => exact requested

variable {sha256 : Str → Str} {validateKennzeichen : Str → Option Str}

theorem requested_staged (occasion : Occasion) (contact : OutboxChannel × Str) (id : Uuid)
    (createdAt : Instant) (companyId : Uuid) (payload : List (Str × Json)) (priority : Nat) :
    (Write.insertOutbox (.staged id createdAt companyId contact.1 contact.2 occasion.template
      payload priority (contactKey occasion.event contact))).Requested :=
  ⟨occasion, contact, id, createdAt, companyId, payload, priority,
    by rw [occasion.key_eq, contactKey]⟩

theorem grants_requested : Grants Write.Requested where
  log _ := trivial
  unlocked _ := trivial
  resolved _ := trivial
  completed _ _ := trivial
  successor _ := trivial
  driver _ _ _ _ _ := trivial
  vehicle _ := trivial
  locked _ _ := trivial
  case _ := trivial
  alert _ _ _ _ _ := by
    change "FSK_FAILED_LOCK".toList ≠ undeliverableCode
    decide
  failed _ triggerCheckId _ _ contact _ _ := requested_staged (.failed triggerCheckId) contact ..
  breached case _ _ _ contact := requested_staged (.breached case.id) contact ..
  nagged case today _ _ _ contact := requested_staged (.nagged case.id today) contact ..
  reminded deadline _ token _ chosen _ _ _ _ contact :=
    requested_staged (.reminded deadline.id token ⟨_, _, _, chosen⟩) contact ..
  anonymized _ _ _ := trivial
  user _ _ := trivial
  company _ _ := trivial
  outbox _ := trivial
  sessions _ _ := trivial
  invitations _ _ := trivial

/-- **Every transaction but the relay** stages its messages under their keys. -/
theorem request_requested {request : Request} (other : request ≠ .relayOutbox) :
    postgres.Preserves (OnlyEver Write.Requested)
      (transaction (request.body sha256 validateKennzeichen)) :=
  request_only grants_requested other

theorem request_enqueues {request : Request} (other : request ≠ .relayOutbox) {world : World}
    {outcome : Except Error Outcome} {after : Session}
    (ended : (system sha256 validateKennzeichen).Ends
      ((system sha256 validateKennzeichen).program request)
      ((system sha256 validateKennzeichen).opening world request) outcome after) :
    OnlyEver Write.Enqueues after :=
  (request_requested other _ _ _ ended (.opening _ _)).mono Write.Requested.enqueues

end Fristenwaechter
