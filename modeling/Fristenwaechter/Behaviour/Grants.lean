import Fristenwaechter.Behaviour.Jobs
import Fristenwaechter.Behaviour.Recording
import Fristenwaechter.Notifiers.Templates

/-!
Owns what the requests write, told once for every condition on writes: a condition that
grants each of their forms holds of everything that a request executes.
-/

namespace Fristenwaechter

open Library (Server)
open Library.Program (forEach)

/-- The payload fields that name the subject of a deadline. -/
def Deadline.names (deadline : Deadline) (driver : Option Driver) (vehicle : Option Vehicle) :
    Payload :=
  match deadline.subject with
  | .driver driverId =>
      [("subject_name".toList, .str (driver.elim dash Driver.fullName)),
        ("deep_link".toList, .str ("/drivers/".toList ++ driverId.text ++ "/history".toList))]
  | .vehicle vehicleId =>
      [("subject_name".toList, .str (vehicle.elim dash Vehicle.kennzeichen)),
        ("deep_link".toList, .str ("/vehicles/".toList ++ vehicleId.text ++ "/history".toList))]

theorem subjectContext_names {session after : Session} {deadline : Deadline} {subject : Payload}
    (ended : postgres.Ends (subjectContext deadline) session (.ok subject) after) :
    ∃ driver vehicle, subject = deadline.names driver vehicle := by
  unfold subjectContext at ended
  unfold Deadline.names
  cases isSubject : deadline.subject with
  | driver driverId =>
      rw [isSubject] at ended
      rcases ends_then.mp ended with ⟨driver, _, _, same, _⟩ | ⟨_, same, _⟩ <;> cases same
      exact ⟨driver, none, rfl⟩
  | vehicle vehicleId =>
      rw [isSubject] at ended
      rcases ends_then.mp ended with ⟨vehicle, _, _, same, _⟩ | ⟨_, same, _⟩ <;> cases same
      exact ⟨none, vehicle, rfl⟩

/-- What a condition on writes has to grant so that E6 meets it. -/
structure GrantsE6 (allowed : Write → Prop) : Prop where
  locked : ∀ (driver : Driver) (now : Instant),
    allowed (.updateDriver driver (driver.lockedAtInstant now))
  case : ∀ row, allowed (.insertCase row)
  alert : ∀ (id companyId caseId : Uuid) (driver : Driver) (deadline : Instant),
    allowed (.insertAlert (e6Alert id companyId caseId driver deadline))
  failed : ∀ (companyId triggerCheckId : Uuid) (driver : Driver) (deadline : Instant)
    (contact : OutboxChannel × Str) (id : Uuid) (createdAt : Instant), allowed (.insertOutbox
      (e6Message companyId triggerCheckId (e6Context driver deadline) contact id createdAt))

/-- What it has to grant so that the deletion of rows and the tombstone meet it. -/
structure GrantsPurges (allowed : Write → Prop) : Prop where
  user : ∀ loaded current, allowed (.updateUser loaded current)
  company : ∀ loaded current, allowed (.updateCompany loaded current)
  outbox : ∀ ids, allowed (.deleteOutbox ids)
  sessions : ∀ ids now, allowed (.revokeSessions ids now)
  invitations : ∀ ids now, allowed (.acceptInvitations ids now)

/-- What it has to grant so that the other requests meet it, the relay apart. -/
structure GrantsOthers (allowed : Write → Prop) : Prop extends GrantsChecks allowed where
  driver : ∀ (id companyId : Uuid) (firstName lastName : Str) (employmentStart : Option Date),
    allowed (.insertDriver (.created id companyId firstName lastName employmentStart))
  vehicle : ∀ row, allowed (.insertVehicle row)
  breached : ∀ (case : EscalationCase) (driver : Option Driver) (id : Uuid) (createdAt : Instant)
    (contact : OutboxChannel × Str), allowed (.insertOutbox (case.message driver
      "escalation_breached".toList 0 (breachedEvent case.id) id createdAt contact))
  nagged : ∀ (case : EscalationCase) (today : Date) (driver : Option Driver) (id : Uuid)
    (createdAt : Instant) (contact : OutboxChannel × Str), allowed (.insertOutbox (case.message
      driver "escalation_nag".toList 50 (nagEvent case.id today) id createdAt contact))
  reminded : ∀ (deadline : Deadline) (today : Date) (token : Str) (display : Int)
    (_ : reminderNotch deadline.dueOn today = some (token, display)) (driver : Option Driver)
    (vehicle : Option Vehicle) (id : Uuid) (createdAt : Instant) (contact : OutboxChannel × Str),
    allowed (.insertOutbox (deadline.message display (deadline.names driver vehicle) token id
      createdAt contact))
  anonymized : ∀ (driver : Driver) (anonymizedAt : Option Instant), anonymizedAt.isSome = true →
    allowed (.updateDriver driver
      { driver with firstName := anonName, lastName := anonName, anonymizedAt := anonymizedAt })

/-- What it has to grant so that every request meets it, the relay apart. -/
structure Grants (allowed : Write → Prop) : Prop
    extends GrantsOthers allowed, GrantsE6 allowed, GrantsPurges allowed

/-- A request that may lock a driver. -/
def Request.Escalates : Request → Prop
  | .recordDriverCheck _ _ data => submitted data = resultFailed
  | .runE6 _ _ _ _ _ => True
  | _ => False

/-- A request that may delete messages. -/
def Request.Purges : Request → Prop
  | .pruneOldOutbox => True
  | .tombstoneDeletedCompanies => True
  | _ => False

section Requests

variable {sha256 : Str → Str} {validateKennzeichen : Str → Option Str}
variable {allowed : Write → Prop}

theorem only_resolveRecipients (companyId : Uuid) :
    postgres.Preserves (OnlyEver allowed) (resolveRecipients companyId) :=
  only_then (only_read fun _ may => may) fun _ => only_pure _

theorem only_enqueueForAll {companyId : Uuid} {recipients : List Recipient} {template : Str}
    {payload : List (Str × Json)} {priority : Nat} {event : Str}
    (may : ∀ id createdAt contact, allowed (.insertOutbox
      (.staged id createdAt companyId contact.1 contact.2 template payload priority
        (contactKey event contact)))) :
    postgres.Preserves (OnlyEver allowed)
      (enqueueForAll companyId recipients template payload priority event) := by
  refine only_forEach fun contact _ => only_then ?_ fun _ => only_pure _
  refine only_then (only_read fun _ may => may) fun taken => ?_
  split
  · exact only_pure _
  · refine only_then only_serverDefaults fun given => ?_
    exact only_then (only_add (may _ _ contact)) fun _ => only_pure _

theorem only_subjectContext (deadline : Deadline) :
    postgres.Preserves (OnlyEver allowed) (subjectContext deadline) := by
  unfold subjectContext
  split
  · exact only_then (only_getDriver _) fun _ => only_pure _
  · exact only_then (only_getVehicle _) fun _ => only_pure _

theorem only_relayOutbox (message : ∀ loaded current, allowed (.updateOutbox loaded current))
    (alert : ∀ id message attempts,
      allowed (.insertAlert (undeliverableAlert id message attempts))) :
    postgres.Preserves (OnlyEver allowed) relayOutbox := by
  refine only_then only_now fun now => only_then (only_read fun _ may => may) fun rows => ?_
  refine only_forEach fun row _ => only_then (only_emit fun _ may => may.elim) fun answer => ?_
  split
  · unfold recordFailure
    dsimp only
    split
    · refine only_then only_now fun now => only_then (only_add (message _ _)) fun _ => ?_
      exact only_then only_serverDefaults fun given => only_add (alert _ _ _)
    · refine only_then (only_orThrow _ _) fun delay => ?_
      exact only_then only_now fun now => only_add (message _ _)
  · exact only_then only_now fun now => only_add (message _ _)

section Escalation

variable (grants : GrantsE6 allowed)

include grants

theorem only_addMessages (companyId triggerCheckId : Uuid) (driver : Driver) (deadline : Instant)
    (contacts : List (OutboxChannel × Str)) :
    postgres.Preserves (OnlyEver allowed)
      (addMessages companyId triggerCheckId (e6Context driver deadline) contacts) := by
  induction contacts with
  | nil => exact only_pure _
  | cons contact rest inductionHypothesis =>
      refine only_then only_serverDefaults fun given => ?_
      refine only_then (only_add (grants.failed _ _ driver deadline contact _ _)) fun _ => ?_
      exact only_then inductionHypothesis fun _ => only_pure _

theorem only_runE6 (driverId companyId triggerCheckId : Uuid) (recipients : List Recipient) :
    postgres.Preserves (OnlyEver allowed)
      (runE6 driverId companyId triggerCheckId recipients) := by
  refine only_tryCatch (only_nested ?_) fun error => ?_
  · refine only_then (only_read fun _ may => may) fun found => ?_
    cases found with
    | none => exact only_throw _
    | some driver =>
        refine only_then only_now fun now => only_then (only_orThrow _ _) fun deadline => ?_
        refine only_then (only_addAll fun write member =>
          Driver.mem_update member ▸ grants.locked driver now) fun _ => ?_
        refine only_then only_serverDefaults fun given => ?_
        refine only_then (only_add (grants.case _)) fun _ => ?_
        refine only_then (only_tryCatch only_flush fun error => ?_) fun _ => ?_
        · split <;> exact only_throw _
        · refine only_then only_serverDefaults fun given => ?_
          refine only_then (only_add (grants.alert _ _ _ _ _)) fun _ => ?_
          exact only_then (only_addMessages grants _ _ _ _ _) fun _ => only_then only_flush fun _ =>
            only_pure _
  · split
    · refine only_then (only_read fun _ may => may) fun found => ?_
      split
      · exact only_pure _
      · exact only_throw _
    · exact only_throw _

theorem only_recordFailedCheck (checks : GrantsChecks allowed) (user : AccountUser)
    (driverId : Uuid) (performedOn : Date) :
    postgres.Preserves (OnlyEver allowed)
      (recordFailedCheck sha256 user driverId performedOn) := by
  refine only_then (only_recordCheck checks _ _ _ _ _ _ _ _ _) fun check => ?_
  refine only_then (only_resolveRecipients _) fun recipients => ?_
  refine only_then (only_emit fun _ may => may.elim) fun triggerCheckId => ?_
  exact only_then (only_runE6 grants _ _ _ _) fun _ => only_pure _

end Escalation

section Others

variable (grants : GrantsOthers allowed)

include grants

/-! ### Handlers -/

theorem only_createDriver (user : AccountUser) (data : Form) :
    postgres.Preserves (OnlyEver allowed) (createDriver user data) := by
  unfold createDriver
  refine only_guard ?_
  dsimp only
  split
  · exact only_pure _
  · refine only_then only_serverDefaults fun given => ?_
    refine only_then (only_add (grants.driver _ _ _ _ _)) fun _ => ?_
    refine only_then only_flush fun _ => only_then (only_dateOrToday _) fun anchor => ?_
    refine only_then (only_orThrow _ _) fun due => only_then only_serverDefaults fun given => ?_
    exact only_then (only_add (grants.successor _)) fun _ => only_pure _

theorem only_createVehicle (user : AccountUser) (data : Form) :
    postgres.Preserves (OnlyEver allowed) (createVehicle validateKennzeichen user data) := by
  unfold createVehicle
  refine only_guard ?_
  dsimp only
  split
  · exact only_pure _
  · refine only_then only_serverDefaults fun given => ?_
    refine only_then (only_add (grants.vehicle _)) fun _ => ?_
    refine only_then only_flush fun _ => only_then (only_dateOrToday _) fun anchor => ?_
    refine only_then (only_orThrow _ _) fun due => only_then only_serverDefaults fun given => ?_
    refine only_then (only_add (grants.successor _)) fun _ => ?_
    refine only_then (only_orThrow _ _) fun due => ?_
    refine only_then only_serverDefaults fun given => ?_
    exact only_then (only_add (grants.successor _)) fun _ => only_pure _

theorem only_recordVehicleCheck (user : AccountUser) (vehicleId : Uuid) (data : Form) :
    postgres.Preserves (OnlyEver allowed) (recordVehicleCheck sha256 user vehicleId data) := by
  unfold recordVehicleCheck
  refine only_guard ?_
  dsimp only
  refine only_then (only_dateOrToday _) fun performedOn => ?_
  refine only_then (only_read fun _ may => may) fun found => ?_
  cases found with
  | none =>
      exact only_then (only_recordCheck grants.toGrantsChecks _ _ _ _ _ _ _ _ _) fun _ =>
        only_pure _
  | some openDl =>
      exact only_then (only_completeDeadline grants.toGrantsChecks _ _ _ _ _ _) fun _ => only_pure _

/-! ### Jobs -/

theorem only_sweepCase (now : Instant) (today : Date) (case : EscalationCase) :
    postgres.Preserves (OnlyEver allowed) (sweepCase now today case) := by
  refine only_then (only_getDriver _) fun driver => ?_
  refine only_then (only_resolveRecipients _) fun recipients => ?_
  dsimp only
  split
  · exact only_then (only_add (grants.resolved _)) fun _ =>
      only_enqueueForAll (grants.breached case driver)
  · split
    · exact only_then (only_add (grants.resolved _)) fun _ =>
        only_enqueueForAll (grants.nagged case today driver)
    · exact only_pure _

theorem only_sweepEscalations :
    postgres.Preserves (OnlyEver allowed) sweepEscalations := by
  refine only_then only_now fun now => only_then only_todayBerlin fun today => ?_
  refine only_then (only_emit fun _ may => may.elim) fun _ => ?_
  refine only_then (only_read fun _ may => may) fun cases => ?_
  exact only_forEach fun case _ => only_sweepCase grants now today case

theorem only_sendReminders : postgres.Preserves (OnlyEver allowed) sendReminders := by
  refine only_then only_todayBerlin fun today => ?_
  refine only_then (only_emit fun _ may => may.elim) fun _ => ?_
  refine only_then (only_read fun _ may => may) fun deadlines => only_forEach fun deadline _ => ?_
  unfold remind
  split
  · exact only_pure ()
  · rename_i token display chosen
    refine Server.preserves_bind_of (only_subjectContext deadline) subjectContext_names ?_
    rintro subject ⟨driver, vehicle, rfl⟩
    refine only_then (only_resolveRecipients _) fun recipients => ?_
    exact only_enqueueForAll (grants.reminded deadline today token display chosen driver vehicle)

theorem only_anonymizeEach (today : Date) (drivers : List Driver) (count : Nat) :
    postgres.Preserves (OnlyEver allowed) (anonymizeEach today drivers count) := by
  induction drivers generalizing count with
  | nil => exact only_pure count
  | cons driver rest inductionHypothesis =>
      unfold anonymizeEach
      split
      · exact inductionHypothesis count
      · refine only_then (only_getCompany _) fun company => ?_
        dsimp only
        refine only_then (only_orThrow _ _) fun cutoff => ?_
        split
        · refine only_then ?_ fun _ => inductionHypothesis (count + 1)
          unfold anonymizeDriver
          split
          · exact only_pure ()
          · exact only_then only_now fun now => only_addAll fun write member =>
            Driver.mem_update member ▸ grants.anonymized driver (some now) rfl
        · exact inductionHypothesis count

theorem only_tombstoneCompany (purges : GrantsPurges allowed) (company : Company) :
    postgres.Preserves (OnlyEver allowed) (tombstoneCompany company) := by
  refine only_then only_now fun now => ?_
  refine only_then (only_addAll fun write member =>
    Company.mem_update member ▸ purges.company _ _) fun _ => ?_
  refine only_then (only_read fun _ may => may) fun users => ?_
  refine only_then (only_forEach fun user _ => only_addAll fun write member =>
    AccountUser.mem_update member ▸ purges.user _ _) fun _ => ?_
  refine only_then (only_read fun _ may => may) fun drivers => ?_
  refine only_then (only_forEach fun driver _ => only_addAll fun write member => ?_) fun _ => ?_
  · refine Driver.mem_update member ▸ grants.anonymized driver _ ?_
    cases known : driver.anonymizedAt <;> rfl
  refine only_then (only_select ?_) fun _ => only_then (only_select ?_) fun _ => only_select ?_
  · rintro _ ⟨ids, rfl⟩
    exact purges.sessions _ _
  · rintro _ ⟨ids, rfl⟩
    exact purges.outbox _
  · rintro _ ⟨ids, rfl⟩
    exact purges.invitations _ _

/-- **Every transaction but the relay** writes nothing else than it has to be granted. -/
theorem request_only_of {request : Request} (other : request ≠ .relayOutbox)
    (e6 : request.Escalates → GrantsE6 allowed) (purges : request.Purges → GrantsPurges allowed) :
    postgres.Preserves (OnlyEver allowed)
      (transaction (request.body sha256 validateKennzeichen)) := by
  refine only_transaction ?_
  cases request with
  | createDriver user data => exact only_then (only_createDriver grants _ _) fun _ => only_pure _
  | createVehicle user data => exact only_then (only_createVehicle grants _ _) fun _ => only_pure _
  | recordDriverCheck user driverId data =>
      exact only_then (only_recordDriverCheck grants.toGrantsChecks user driverId data
        fun isFailed performedOn => only_recordFailedCheck (e6 isFailed) grants.toGrantsChecks user
          driverId performedOn) fun _ => only_pure _
  | recordVehicleCheck user vehicleId data =>
      exact only_then (only_recordVehicleCheck grants _ _ _) fun _ => only_pure _
  | runE6 tenant driverId companyId triggerCheckId recipients =>
      exact only_then (only_runE6 (e6 trivial) _ _ _ _) fun _ => only_pure _
  | completeDeadline tenant deadlineId companyId result completedOn performedById method =>
      exact only_then (only_completeDeadline grants.toGrantsChecks _ _ _ _ _ _) fun _ => only_pure _
  | maybeResolveOpenCase tenant driverId locking resolvedById =>
      exact only_then (only_resolveFor grants.toGrantsChecks _ _ _) fun _ => only_pure _
  | sweepEscalations => exact only_then (only_sweepEscalations grants) fun _ => only_pure _
  | sendReminders => exact only_then (only_sendReminders grants) fun _ => only_pure _
  | relayOutbox => exact absurd rfl other
  | anonymizeExpiredDrivers =>
      refine only_then (only_then only_todayBerlin fun today => ?_) fun _ => only_pure _
      exact only_then (only_read fun _ may => may) fun _ =>
        only_anonymizeEach grants _ _ _
  | pruneOldOutbox =>
      refine only_then (only_then only_todayBerlin fun today => ?_) fun _ => only_pure _
      refine only_then (only_orThrow _ _) fun cutoff => only_select ?_
      rintro _ ⟨ids, rfl⟩
      exact (purges trivial).outbox _
  | tombstoneDeletedCompanies =>
      refine only_then (only_then only_now fun now => ?_) fun _ => only_pure _
      refine only_then (only_read fun _ may => may) fun companies => ?_
      refine only_then (only_forEach fun company _ => ?_) fun _ => only_pure _
      exact only_tombstoneCompany grants (purges trivial) company

end Others

/-- **Every transaction but the relay** writes nothing else. -/
theorem request_only (grants : Grants allowed) {request : Request}
    (other : request ≠ .relayOutbox) :
    postgres.Preserves (OnlyEver allowed)
      (transaction (request.body sha256 validateKennzeichen)) :=
  request_only_of grants.toGrantsOthers other (fun _ => grants.toGrantsE6) fun _ =>
    grants.toGrantsPurges

end Requests

end Fristenwaechter
