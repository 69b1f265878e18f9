import Fristenwaechter.Behaviour.Within
import Fristenwaechter.System

/-!
Owns what the jobs have done when their transaction commits: the rows they have
claimed, and the writes they can have executed. A relay cycle is followed send by send.
-/

namespace Fristenwaechter

open Library.Program (forEach)

variable {session after : Session}

/-! ### Escalation sweep -/

/-- The dedup key of an event for one contact. -/
def contactKey (event : Str) (contact : OutboxChannel × Str) : Str :=
  event ++ ':' :: (contact.1.text ++ ':' :: contact.2)

/-- The payload of a sweep's messages. -/
def EscalationCase.payload (case : EscalationCase) (driver : Option Driver) : List (Str × Json) :=
  [("driver_name".toList, .str (driver.elim ['—'] Driver.fullName)),
    ("deadline".toList, .str (germanDay case.deadlineAt)),
    ("case_path".toList, .str ("/drivers/".toList ++ case.driverId.text ++ "/escalation".toList)),
    ("company_id".toList, .str case.companyId.text)]

/-- A message of a sweep about one of its cases. -/
def EscalationCase.message (case : EscalationCase) (driver : Option Driver) (template : Str)
    (priority : Nat) (event : Str) (id : Uuid) (createdAt : Instant)
    (contact : OutboxChannel × Str) : OutboxMessage :=
  .staged id createdAt case.companyId contact.1 contact.2 template (case.payload driver) priority
    (contactKey event contact)

/-- The writes of a sweep over its claimed cases. -/
inductive SweepWrite (now : Instant) (today : Date) (cases : List EscalationCase) : Write → Prop
  | breach (case : EscalationCase) (claimed : case ∈ cases) (late : case.deadlineAt < now) :
      SweepWrite now today cases (.updateCase case.breach)
  | breachMessage (case : EscalationCase) (claimed : case ∈ cases) (late : case.deadlineAt < now)
      (driver : Option Driver) (id : Uuid) (createdAt : Instant) (contact : OutboxChannel × Str) :
      SweepWrite now today cases (.insertOutbox (case.message driver "escalation_breached".toList 0
        (breachedEvent case.id) id createdAt contact))
  | nag (case : EscalationCase) (claimed : case ∈ cases) (inTime : ¬ case.deadlineAt < now) :
      SweepWrite now today cases (.updateCase (case.nagged today))
  | nagMessage (case : EscalationCase) (claimed : case ∈ cases) (inTime : ¬ case.deadlineAt < now)
      (driver : Option Driver) (id : Uuid) (createdAt : Instant) (contact : OutboxChannel × Str) :
      SweepWrite now today cases (.insertOutbox (case.message driver "escalation_nag".toList 50
        (nagEvent case.id today) id createdAt contact))

theorem within_enqueueForAll {allowed : Write → Prop} {base : Session} {companyId : Uuid}
    {recipients : List Recipient} {template : Str} {payload : List (Str × Json)} {priority : Nat}
    {event : Str}
    (may : ∀ id createdAt contact, allowed (.insertOutbox
      (.staged id createdAt companyId contact.1 contact.2 template payload priority
        (contactKey event contact)))) :
    postgres.Preserves (Within allowed base)
      (enqueueForAll companyId recipients template payload priority event) := by
  refine within_forEach fun contact _ => within_then ?_ fun _ => within_pure _
  refine within_then (within_read (by simp) fun _ may => may) fun taken => ?_
  by_cases isTaken : taken = true
  · rw [if_pos isTaken]
    exact within_pure _
  · rw [if_neg isTaken]
    refine within_then within_serverDefaults fun drawn => ?_
    exact within_then (within_add (may _ _ contact)) fun _ => within_pure _

theorem within_resolveRecipients {allowed : Write → Prop} {base : Session} (companyId : Uuid) :
    postgres.Preserves (Within allowed base) (resolveRecipients companyId) :=
  within_then (within_read (by simp) fun _ may => may) fun _ => within_pure _

theorem within_sweepCase {base : Session} {now : Instant} {today : Date}
    {cases : List EscalationCase} {case : EscalationCase} (claimed : case ∈ cases) :
    postgres.Preserves (Within (SweepWrite now today cases) base) (sweepCase now today case) := by
  refine within_then (within_getDriver _) fun driver => ?_
  refine within_then (within_resolveRecipients _) fun recipients => ?_
  by_cases late : case.deadlineAt < now
  · rw [if_pos late]
    refine within_then (within_add (.breach case claimed late)) fun _ => ?_
    exact within_enqueueForAll (.breachMessage case claimed late driver)
  · rw [if_neg late]
    split
    · refine within_then (within_add (.nag case claimed late)) fun _ => ?_
      exact within_enqueueForAll (.nagMessage case claimed late driver)
    · exact within_pure _

/-- A sweep reads the clock twice, opens its transaction and claims the OPEN cases. -/
structure Sweeps (session : Session) (now clock begun claim : Sent) (today : Date)
    (base : Session) : Prop where
  timed : session.Asked .now now
  dated : (session.saw now).Asked .now clock
  isToday : berlinDate clock.env.now = some today
  opened : ((session.saw now).saw clock).Asked .begin begun
  asked : (((session.saw now).saw clock).begun begun).Asked .openCasesForUpdate claim
  isBase : base = (((session.saw now).saw clock).begun begun).locked claim
    (claim.claimableCases.map fun row => .case row.id)

theorem sweepEscalations_ends (clean : session.memory.pending = [])
    (ended : postgres.Ends sweepEscalations session (.ok ()) after) :
    ∃ now clock begun claim today base, Sweeps session now clock begun claim today base ∧
      postgres.Ends (forEach claim.claimableCases (sweepCase now.env.now today)) base (.ok ())
        after := by
  obtain ⟨now, timed, ended⟩ := step_now ended
  obtain ⟨clock, dated, ⟨today, isToday, ended⟩ | ⟨_, same, _⟩⟩ := step_todayBerlin ended
  · obtain ⟨begun, opened, ended⟩ := step_begin ended
    obtain ⟨claim, asked, ended⟩ := step_openCasesForUpdate (by simp [clean]) ended
    exact ⟨now, clock, begun, claim, today, _, ⟨timed, dated, isToday, opened, asked, rfl⟩, ended⟩
  · cases same

theorem Sweeps.within {now clock begun claim : Sent} {today : Date} {base : Session}
    (clean : session.memory.pending = [])
    (sweeps : Sweeps session now clock begun claim today base)
    (ended : postgres.Ends (forEach claim.claimableCases (sweepCase now.env.now today)) base
      (.ok ()) after) :
    Within (SweepWrite now.env.now today claim.claimableCases) base after := by
  refine within_forEach (fun case claimed => within_sweepCase claimed) base _ after ended
    (.refl ?_)
  simp [sweeps.isBase, clean]

/-! ### Reminders -/

/-- The payload of a reminder with the names of its subject. -/
def Deadline.payload (deadline : Deadline) (display : Int) (subject : List (Str × Json)) :
    List (Str × Json) :=
  [("company_id".toList, .str deadline.companyId.text),
    ("kind".toList, .str deadline.kind.text),
    ("kind_label".toList, .str deadline.kind.label),
    ("due_date".toList, .str deadline.dueOn.german),
    ("notch".toList, .int display)] ++ subject

/-- `f"rem:{deadline.id}:{token}"`. -/
def reminderEvent (deadlineId : Uuid) (token : Str) : Str :=
  "rem:".toList ++ deadlineId.text ++ ':' :: token

/-- The fields `_subject_context` returns. -/
def NamesSubject (subject : List (Str × Json)) : Prop :=
  subject.map Prod.fst = ["subject_name".toList, "deep_link".toList]

/-- A message of the reminder sweep. -/
def Deadline.message (deadline : Deadline) (display : Int) (subject : List (Str × Json))
    (token : Str) (id : Uuid) (createdAt : Instant) (contact : OutboxChannel × Str) :
    OutboxMessage :=
  .staged id createdAt deadline.companyId contact.1 contact.2 "deadline_reminder".toList
    (deadline.payload display subject) 100 (contactKey (reminderEvent deadline.id token) contact)

/-- The writes of a reminder sweep. -/
inductive Reminds : Write → Prop
  | message (deadline : Deadline) (display : Int) (subject : List (Str × Json)) (token : Str)
      (named : NamesSubject subject) (id : Uuid) (createdAt : Instant)
      (contact : OutboxChannel × Str) :
      Reminds (.insertOutbox (deadline.message display subject token id createdAt contact))

theorem subjectContext_returns {deadline : Deadline} {subject : List (Str × Json)}
    (ended : postgres.Ends (subjectContext deadline) session (.ok subject) after) :
    NamesSubject subject := by
  unfold subjectContext at ended
  split at ended
  · rcases ends_then.mp ended with ⟨_, _, _, same, _⟩ | ⟨_, same, _⟩ <;> cases same
    rfl
  · rcases ends_then.mp ended with ⟨_, _, _, same, _⟩ | ⟨_, same, _⟩ <;> cases same
    rfl

theorem within_sendReminders {base : Session} :
    postgres.Preserves (Within Reminds base) sendReminders := by
  refine within_then within_todayBerlin fun today => ?_
  refine within_then (within_emit (by simp) fun _ may => may.elim) fun _ => ?_
  refine within_then (within_read (by simp) fun _ may => may) fun deadlines => ?_
  refine within_forEach fun deadline _ => ?_
  unfold remind
  split
  · exact within_pure _
  · rename_i token display _
    have reads : postgres.Preserves (Within Reminds base) (subjectContext deadline) := by
      unfold subjectContext
      split
      · exact within_then (within_getDriver _) fun _ => within_pure _
      · exact within_then (within_getVehicle _) fun _ => within_pure _
    refine Library.Server.preserves_bind_of reads subjectContext_returns fun subject named => ?_
    refine within_then (within_resolveRecipients _) fun recipients => ?_
    exact within_enqueueForAll (.message deadline display subject token named)

/-! ### Data protection -/

/-- The writes of the nightly purge. -/
def Scrubs : Write → Prop
  | .updateDriver loaded current =>
      current.isAuthorizedToDrive = loaded.isAuthorizedToDrive ∧
        current.lockReason = loaded.lockReason ∧ current.lockedAt = loaded.lockedAt
  | .updateUser _ _ => True
  | .updateCompany _ _ => True
  | .deleteOutbox _ => True
  | .revokeSessions _ _ => True
  | .acceptInvitations _ _ => True
  | _ => False

/-- The writes of an anonymization, which deletes nothing. -/
def Anonymizes (write : Write) : Prop :=
  Scrubs write ∧ ∀ ids, write ≠ .deleteOutbox ids

theorem within_assignDriver {allowed : Write → Prop} {base : Session} {loaded current : Driver}
    (may : allowed (.updateDriver loaded current)) :
    postgres.Preserves (Within allowed base) (assignDriver loaded current) := by
  refine within_addAll fun write member => ?_
  exact Driver.mem_update member ▸ may

theorem within_anonymizeExpiredDrivers {base : Session} :
    postgres.Preserves (Within Anonymizes base) anonymizeExpiredDrivers := by
  have each : ∀ (today : Date) (drivers : List Driver) (count : Nat),
      postgres.Preserves (Within Anonymizes base) (anonymizeEach today drivers count) := by
    intro today drivers
    induction drivers with
    | nil => exact fun count => within_pure _
    | cons driver rest inductionHypothesis =>
        intro count
        unfold anonymizeEach
        split
        · exact inductionHypothesis count
        · refine within_then (within_getCompany _) fun company => ?_
          refine within_then (within_orThrow _ _) fun cutoff => ?_
          by_cases expired : cutoff < today
          · rw [if_pos expired]
            refine within_then ?_ fun _ => inductionHypothesis _
            unfold anonymizeDriver
            split
            · exact within_pure _
            · refine within_then within_now fun now => within_assignDriver ?_
              exact ⟨⟨rfl, rfl, rfl⟩, by simp⟩
          · rw [if_neg expired]
            exact inductionHypothesis count
  refine within_then within_todayBerlin fun today => ?_
  exact within_then (within_read (by simp) fun _ may => may) fun drivers => each today drivers 0

theorem within_pruneOldOutbox {base : Session} :
    postgres.Preserves (Within Scrubs base) pruneOldOutbox := by
  refine within_then within_todayBerlin fun today => ?_
  refine within_then (within_orThrow _ _) fun cutoff => ?_
  refine within_select (by simp) ?_
  rintro _ ⟨ids, rfl⟩
  trivial

theorem within_tombstoneDeletedCompanies {base : Session} :
    postgres.Preserves (Within Scrubs base) tombstoneDeletedCompanies := by
  refine within_then within_now fun now => ?_
  refine within_then (within_read (by simp) fun _ may => may) fun companies => ?_
  refine within_then (within_forEach fun company _ => ?_) fun _ => within_pure _
  refine within_then within_now fun instant => ?_
  refine within_then ?_ fun _ => ?_
  · refine within_addAll fun write member => ?_
    exact Company.mem_update member ▸ trivial
  refine within_then (within_read (by simp) fun _ may => may) fun users => ?_
  refine within_then (within_forEach fun user _ => ?_) fun _ => ?_
  · refine within_addAll fun write member => ?_
    exact AccountUser.mem_update member ▸ trivial
  refine within_then (within_read (by simp) fun _ may => may) fun drivers => ?_
  refine within_then (within_forEach fun driver _ => within_assignDriver ⟨rfl, rfl, rfl⟩)
    fun _ => ?_
  refine within_then (within_select (by simp) ?_) fun _ => ?_
  · rintro _ ⟨ids, rfl⟩
    trivial
  refine within_then (within_select (by simp) ?_) fun _ => within_select (by simp) ?_
  · rintro _ ⟨ids, rfl⟩
    trivial
  · rintro _ ⟨ids, rfl⟩
    trivial

/-! ### Relay -/

/-- What one claimed row leads to: a send with its outcome, and the pending changes. -/
inductive RelaysRow (row : OutboxMessage) : List Sent → List Write → Prop
  | delivered (send now : Sent) (asked : send.statement = .deliver row)
      (timed : now.statement = .now) (messageId : Str)
      (outcome : send.env.delivery = .delivered messageId) :
      RelaysRow row [send, now] [.updateOutbox row
        { row with
          sentAt := some now.env.now
          providerMessageId := some messageId }]
  | refused (send now : Sent) (asked : send.statement = .deliver row)
      (timed : now.statement = .now) (error : Str)
      (outcome : send.env.delivery = .refused error) (delay : Int)
      (inRange : backoff[row.attempts + 1]? = some delay) :
      RelaysRow row [send, now] [.updateOutbox row
        { row.failed error with nextAttemptAt := plusSeconds now.env.now delay }]
  | exhausted (send now alert : Sent) (asked : send.statement = .deliver row)
      (timed : now.statement = .now) (drawn : alert.statement = .serverDefaults) (error : Str)
      (outcome : send.env.delivery = .refused error)
      (spent : backoff.length ≤ row.attempts + 1) :
      RelaysRow row [send, now, alert]
        [.updateOutbox row { row.failed error with deadLetteredAt := some now.env.now },
          .insertAlert (undeliverableAlert alert.env.fresh row (row.attempts + 1))]

theorem recordFailure_ends {row : OutboxMessage} {error : Str} {send : Sent}
    {outcome : Except Error Unit} (asked : send.statement = .deliver row)
    (refused : send.env.delivery = .refused error)
    (ended : postgres.Ends (recordFailure row error) (session.saw send) outcome after) :
    ∃ entries writes, outcome = .ok () ∧ RelaysRow row entries writes ∧
      after = (session.sawAll entries).withPending (session.memory.pending ++ writes) := by
  unfold recordFailure at ended
  dsimp only at ended
  split at ended
  · rename_i spent
    obtain ⟨now, timed, ended⟩ := step_now ended
    have ended := step_add ended
    obtain ⟨alert, drawn, ended⟩ := step_serverDefaults ended
    obtain ⟨rfl, rfl⟩ := ended
    refine ⟨_, _, rfl,
      .exhausted send now alert asked timed.statement drawn.statement error refused spent, ?_⟩
    simp [Session.saw, Session.sawAll, Session.withPending, Session.withMemory]
    rfl
  · rename_i left
    rcases step_orThrow ended with ⟨delay, inRange, ended⟩ | ⟨outOfRange, _⟩
    · obtain ⟨now, timed, ended⟩ := step_now ended
      obtain ⟨rfl, rfl⟩ := ended
      refine ⟨_, _, rfl, .refused send now asked timed.statement error refused delay inRange, ?_⟩
      simp [Session.saw, Session.sawAll, Session.withPending, Session.withMemory]
    · exact absurd (List.getElem?_eq_none_iff.mp outOfRange) left

/-- The entry claims no messages. -/
def Sent.ClaimsNothing (entry : Sent) : Prop :=
  ∀ now limit, entry.statement ≠ .dueOutbox now limit

theorem RelaysRow.claimsNothing {row : OutboxMessage} {entries : List Sent} {writes : List Write}
    (relays : RelaysRow row entries writes) : ∀ entry ∈ entries, Sent.ClaimsNothing entry := by
  intro entry member now limit
  cases relays with
  | delivered send clock asked timed =>
      rcases List.mem_pair.mp member with rfl | rfl
      · simp [asked]
      · simp [timed]
  | refused send clock asked timed =>
      rcases List.mem_pair.mp member with rfl | rfl
      · simp [asked]
      · simp [timed]
  | exhausted send clock alert asked timed drawn =>
      rcases List.mem_cons.mp member with rfl | member
      · simp [asked]
      · rcases List.mem_pair.mp member with rfl | rfl
        · simp [timed]
        · simp [drawn]

/-- The send of one of the rows has raised something else than a `NotifierError`. -/
structure Crashes (rows : List OutboxMessage) (session after : Session) : Prop where
  grown : Grown session after
  claimsNothing : ∃ more, after.trace = session.trace ++ more ∧
    ∀ entry ∈ more, Sent.ClaimsNothing entry
  sent : ∃ row ∈ rows, ∃ send ∈ after.trace,
    send.statement = .deliver row ∧ send.env.delivery = .crashed

/-- A claimed row is sent once; only a crash of the notifier ends the cycle. -/
theorem relayRow_ends {row : OutboxMessage} {outcome : Except Error Unit}
    (ended : postgres.Ends (relayRow row) session outcome after) :
    (∃ entries writes, outcome = .ok () ∧ RelaysRow row entries writes ∧
        after = (session.sawAll entries).withPending (session.memory.pending ++ writes)) ∨
      outcome = .error .notifier ∧ Crashes [row] session after := by
  rcases ends_then.mp ended with ⟨answer, middle, first, rest⟩ | ⟨error, rfl, first⟩
  · obtain ⟨send, asked, rfl, ⟨messageId, delivered, same⟩ | ⟨error, refused, same⟩ | ⟨_, same⟩⟩ :=
      sends_deliver (ends_emit.mp first)
    · cases same
      obtain ⟨now, timed, rest⟩ := step_now rest
      obtain ⟨rfl, rfl⟩ := rest
      refine .inl ⟨_, _, rfl,
        .delivered send now asked.statement timed.statement messageId delivered, ?_⟩
      simp [Session.saw, Session.sawAll, Session.withPending, Session.withMemory]
    · cases same
      exact .inl (recordFailure_ends asked.statement refused rest)
    · cases same
  · obtain ⟨send, asked, isAfter, ⟨_, _, same⟩ | ⟨_, _, same⟩ | ⟨crashed, same⟩⟩ :=
      sends_deliver (ends_emit.mp first)
    · cases same
    · cases same
    · cases same
      refine .inr ⟨rfl, isAfter ▸ .saw session send, ⟨[send], by simp [isAfter], ?_⟩, row, by simp,
        send, by simp [isAfter], asked.statement, crashed⟩
      intro entry member now limit
      simp [List.mem_singleton.mp member, asked.statement]

/-- What a cycle does to its claimed rows, in the order of the queue. -/
inductive Relays : List OutboxMessage → List Sent → List Write → Prop
  | nil : Relays [] [] []
  | cons {row : OutboxMessage} {rows : List OutboxMessage} {entries more : List Sent}
      {writes rest : List Write} (first : RelaysRow row entries writes)
      (others : Relays rows more rest) :
      Relays (row :: rows) (entries ++ more) (writes ++ rest)

theorem relayRows_ends {rows : List OutboxMessage} {outcome : Except Error Unit}
    (ended : postgres.Ends (forEach rows relayRow) session outcome after) :
    (∃ entries writes, outcome = .ok () ∧ Relays rows entries writes ∧
        after = (session.sawAll entries).withPending (session.memory.pending ++ writes)) ∨
      outcome = .error .notifier ∧ Crashes rows session after := by
  induction rows generalizing session with
  | nil =>
      obtain ⟨rfl, rfl⟩ := ended
      refine .inl ⟨[], [], rfl, .nil, ?_⟩
      simp [Session.sawAll, Session.withPending, Session.withMemory]
  | cons row rest inductionHypothesis =>
      rcases ends_then.mp ended with ⟨⟨⟩, middle, first, second⟩ | ⟨error, rfl, first⟩
      · rcases relayRow_ends first with ⟨entries, writes, _, relays, rfl⟩ | ⟨same, _⟩
        · rcases inductionHypothesis second with ⟨more, others, rfl, relaysRest, rfl⟩ |
            ⟨rfl, crashes⟩
          · refine .inl ⟨_, _, rfl, .cons relays relaysRest, ?_⟩
            simp [Session.sawAll, Session.withPending, Session.withMemory]
          · obtain ⟨crashed, member, sent⟩ := crashes.sent
            obtain ⟨more, whole, nothing⟩ := crashes.claimsNothing
            refine .inr ⟨rfl, ?_, ⟨entries ++ more, by simp [whole], ?_⟩, crashed,
              List.mem_cons_of_mem _ member, sent⟩
            · exact ((Grown.sawAll session entries).trans (.withMemory _ _)).trans crashes.grown
            · intro entry member
              rcases List.mem_append.mp member with own | other
              · exact relays.claimsNothing entry own
              · exact nothing entry other
        · cases same
      · rcases relayRow_ends first with ⟨_, _, same, _⟩ | ⟨same, crashes⟩
        · cases same
        · obtain ⟨crashed, member, sent⟩ := crashes.sent
          rw [List.mem_singleton.mp member] at sent
          exact .inr ⟨same, crashes.grown, crashes.claimsNothing, row, List.mem_cons_self, sent⟩

/-- Everything a cycle can do: it claims the due rows and sends each of them once, or up
to the first crash. -/
theorem relayOutbox_ends {outcome : Except Error Unit} (clean : session.memory.pending = [])
    (ended : postgres.Ends relayOutbox session outcome after) :
    ∃ now claim, session.Asked .now now ∧
      (session.saw now).Asked (.dueOutbox now.env.now batchSize) claim ∧
      ((∃ entries writes, outcome = .ok () ∧
          Relays (claim.dueMessages now.env.now batchSize) entries writes ∧
          after = ((((session.saw now).locked claim
            ((claim.dueMessages now.env.now batchSize).map fun row => .outbox row.id)).sawAll
              entries).withPending writes)) ∨
        outcome = .error .notifier ∧
          Crashes (claim.dueMessages now.env.now batchSize) ((session.saw now).locked claim
            ((claim.dueMessages now.env.now batchSize).map fun row => .outbox row.id)) after) := by
  obtain ⟨now, timed, ended⟩ := step_now ended
  obtain ⟨claim, asked, ended⟩ := step_dueOutbox (by simp [clean]) ended
  refine ⟨now, claim, timed, asked, ?_⟩
  rcases relayRows_ends ended with ⟨entries, writes, rfl, relays, rfl⟩ | failed
  · refine .inl ⟨entries, writes, rfl, relays, ?_⟩
    simp [clean]
  · exact .inr failed

end Fristenwaechter
