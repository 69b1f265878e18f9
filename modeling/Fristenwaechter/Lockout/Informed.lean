import Fristenwaechter.Lockout.Broadcast
import Fristenwaechter.Relay.Removal
import Fristenwaechter.Sweeps.SevenDays

/-!
Owns that nobody is locked in silence: the commit that takes a driver's clearance has
opened their case, raised the alert about it and staged a message for everybody who is to
be notified, and each of these messages stays until it is sent, buried with an alert of
its own, or purged.
-/

namespace Fristenwaechter

open Library (Chain Config Ended Engine Journal Over Policy Reachable Sound Table)

/-! ### Who locks -/

def Write.LocksNobody : Write → Prop
  | .insertDriver row => row.isAuthorizedToDrive = true
  | .updateDriver loaded current =>
      loaded.isAuthorizedToDrive = true → current.isAuthorizedToDrive = true
  | _ => True

theorem others_lockNobody : GrantsOthers Write.LocksNobody where
  log _ := trivial
  unlocked _ _ := rfl
  resolved _ := trivial
  completed _ _ := trivial
  successor _ := trivial
  driver _ _ _ _ _ := rfl
  vehicle _ := trivial
  breached _ _ _ _ _ := trivial
  nagged _ _ _ _ _ _ := trivial
  reminded _ _ _ _ _ _ _ _ _ _ := trivial
  anonymized _ _ _ cleared := cleared

theorem purges_lockNobody : GrantsPurges Write.LocksNobody :=
  ⟨fun _ _ => trivial, fun _ _ => trivial, fun _ => trivial, fun _ _ => trivial,
    fun _ _ => trivial⟩

theorem locked_origin {writes : List Write} {db : Db} {later : Driver}
    (cleared : ∀ row, .insertDriver row ∈ writes → row.isAuthorizedToDrive = true)
    (member : later ∈ (db.after writes).drivers) (locked : later.isAuthorizedToDrive = false) :
    (∃ row ∈ db.drivers, row.id = later.id ∧ row.companyId = later.companyId ∧
        row.isAuthorizedToDrive = false) ∨
      ∃ loaded current, .updateDriver loaded current ∈ writes ∧ loaded.id = later.id ∧
        loaded.isAuthorizedToDrive = true ∧ current.isAuthorizedToDrive = false := by
  induction writes generalizing db with
  | nil => exact .inl ⟨later, member, rfl, rfl, locked⟩
  | cons write rest inductionHypothesis =>
      rw [Db.after_cons] at member
      have restCleared : ∀ row, .insertDriver row ∈ rest → row.isAuthorizedToDrive = true :=
        fun row inside => cleared row (List.mem_cons_of_mem _ inside)
      rcases inductionHypothesis restCleared member with
        ⟨middle, middleIn, sameId, sameCompany, middleLocked⟩ | ⟨loaded, current, inside, others⟩
      swap
      · exact .inr ⟨loaded, current, List.mem_cons_of_mem _ inside, others⟩
      cases write with
      | insertDriver row =>
          rcases Table.mem_insert.mp middleIn with old | ⟨rfl, _⟩
          · exact .inl ⟨middle, old, sameId, sameCompany, middleLocked⟩
          · rw [cleared middle List.mem_cons_self] at middleLocked
            cases middleLocked
      | updateDriver loaded current =>
          obtain ⟨row, rowIn, rfl⟩ := (Table.mem_update (by simp)).mp middleIn
          by_cases wasLocked : row.isAuthorizedToDrive = false
          · refine .inl ⟨row, rowIn, ?_, ?_, wasLocked⟩
            · rw [← sameId]
              split <;> rfl
            · rw [← sameCompany]
              split <;> rfl
          · refine .inr ⟨loaded, current, List.mem_cons_self, ?_⟩
            by_cases hit : row.id = loaded.id
            · rw [if_pos (by simpa using hit)] at middleLocked sameId
              have isId : loaded.id = later.id := hit.symm.trans sameId
              simp only [Driver.changed, column] at middleLocked
              split at middleLocked
              · exact absurd middleLocked wasLocked
              · rename_i differs
                refine ⟨isId, ?_, middleLocked⟩
                rw [middleLocked] at differs
                simpa using Ne.symm differs
            · rw [if_neg (by simpa using hit)] at middleLocked
              exact absurd middleLocked wasLocked
      | _ => exact .inl ⟨middle, middleIn, sameId, sameCompany, middleLocked⟩

section Requests

variable {sha256 : Str → Str} {validateKennzeichen : Str → Option Str}

/-- A request that does not escalate locks nobody. -/
theorem request_locksNobody {request : Request} (calm : ¬ request.Escalates) {world : World}
    {outcome : Except Error Outcome} {after : Session}
    (ended : (system sha256 validateKennzeichen).Ends
      ((system sha256 validateKennzeichen).program request)
      ((system sha256 validateKennzeichen).opening world request) outcome after) :
    OnlyEver Write.LocksNobody after := by
  by_cases relay : request = .relayOutbox
  · subst relay
    have kept : postgres.Preserves (OnlyEver Write.LocksNobody) relayOutbox :=
      only_relayOutbox (fun _ _ => trivial) fun _ _ _ => trivial
    exact only_transaction (only_then kept fun _ => only_pure _) _ _ _ ended (.opening _ _)
  · exact request_only_of others_lockNobody relay (fun escalates => absurd escalates calm)
      (fun _ => purges_lockNobody) _ _ _ ended (.opening _ _)

end Requests

/-! ### What locks also tells -/

def Write.alert : Write → Option SystemAlert
  | .insertAlert row => some row
  | _ => none

def AccountUser.contacts (account : AccountUser) : List (OutboxChannel × Str) :=
  Recipient.contacts ⟨some account.email, account.phoneE164⟩

/-- The writes take the driver's clearance, open their case, raise one critical alert about
the case, and stage one urgent message for each contact of the accounts. -/
structure Informs (writes : List Write) (driverId companyId : Uuid)
    (accounts : List AccountUser) : Prop where
  locks : ∃ loaded now, .updateDriver loaded (loaded.lockedAtInstant now) ∈ writes ∧
    loaded.id = driverId ∧ loaded.isAuthorizedToDrive = true
  alerts : ∃ case alert, .insertCase case ∈ writes ∧ case.driverId = driverId ∧
    case.companyId = companyId ∧ case.status = .open ∧ writes.filterMap Write.alert = [alert] ∧
    alert.severity = .critical ∧ alert.code = "FSK_FAILED_LOCK".toList ∧
    alert.companyId = companyId ∧ alert.escalationCaseId = some case.id
  tells : (writes.filterMap Write.message).map
    (fun message => (message.channel, message.recipient)) = accounts.flatMap AccountUser.contacts
  urgent : ∀ message ∈ writes.filterMap Write.message,
    message.companyId = companyId ∧ message.priority = 0

theorem messages_only (messages : List OutboxMessage) :
    (messages.map Write.insertOutbox).filterMap Write.message = messages ∧
      (messages.map Write.insertOutbox).filterMap Write.alert = [] := by
  induction messages with
  | nil => exact ⟨rfl, rfl⟩
  | cons message rest inductionHypothesis =>
      refine ⟨?_, inductionHypothesis.2⟩
      rw [List.map_cons, List.filterMap_cons, inductionHypothesis.1]
      rfl

theorem LocksOut.informs {companyId triggerCheckId : Uuid} {recipients : List Recipient}
    {trace : List Sent} {driver row : Driver} {load lock now alert : Sent} {case : EscalationCase}
    {createdAt : Instant} {ids : List Uuid} {staged : List Write} {accounts : List AccountUser}
    (locks : LocksOut companyId triggerCheckId recipients trace driver row load lock now alert case
      createdAt ids staged) (log : ComplianceCheckLog)
    (given : recipients.flatMap Recipient.contacts = accounts.flatMap AccountUser.contacts)
    (cleared : driver.isAuthorizedToDrive = true) :
    Informs (.insertLog log :: staged) driver.id companyId accounts := by
  have update : driver.update (driver.lockedAtInstant now.env.now) =
      [.updateDriver driver (driver.lockedAtInstant now.env.now)] := by
    refine if_neg fun same => ?_
    rw [← same] at cleared
    cases cleared
  obtain ⟨_, contacts, _, each⟩ := @broadcast_fields companyId triggerCheckId
    (e6Context driver case.deadlineAt) createdAt (recipients.flatMap Recipient.contacts) ids
    locks.length
  obtain ⟨messages, silent⟩ := messages_only (broadcast companyId triggerCheckId
    (e6Context driver case.deadlineAt) createdAt (recipients.flatMap Recipient.contacts) ids)
  have isMessages : (Write.insertLog log :: staged).filterMap Write.message =
      broadcast companyId triggerCheckId (e6Context driver case.deadlineAt) createdAt
        (recipients.flatMap Recipient.contacts) ids := by
    rw [locks.staged, lockWrites, tellWrites, update]
    simp [Write.message, List.filterMap_cons, List.filterMap_append, messages]
  have isAlert : (Write.insertLog log :: staged).filterMap Write.alert =
      [e6Alert alert.env.fresh companyId case.id driver case.deadlineAt] := by
    rw [locks.staged, lockWrites, tellWrites, update]
    simp [Write.alert, List.filterMap_cons, List.filterMap_append, silent]
  refine ⟨⟨driver, now.env.now, ?_, rfl, cleared⟩, ⟨case, _, ?_, locks.own, locks.caseCompany,
    locks.isOpen, isAlert, rfl, rfl, rfl, rfl⟩, ?_, ?_⟩
  · rw [locks.staged, lockWrites, update]
    simp
  · rw [locks.staged, lockWrites]
    simp
  · rw [isMessages, contacts, given]
  · rw [isMessages]
    exact fun message member => ⟨(each message member).1, (each message member).2.1⟩

theorem notifiedUsers_pinned {entry : Sent} {companyId : Uuid}
    (pinned : entry.connection.tenant = some companyId) :
    entry.notifiedUsers companyId =
      entry.db.accountUsers.rows.filter fun account => account.isNotified companyId := by
  refine List.filter_congr fun account _ => ?_
  cases isNotified : account.isNotified companyId with
  | false => rw [Bool.and_false]
  | true =>
      simp only [AccountUser.isNotified, decide_eq_true_eq] at isNotified
      simp [Connection.sees, pinned, isNotified.1]

/-- The transaction has locked the driver of the company and told everybody who was to be
notified as it has read them. -/
structure Notifies (after : Session) (driverId companyId : Uuid) : Prop where
  told : ∃ read : Sent, read ∈ after.trace ∧ read.statement = .notifiedUsers companyId ∧
    Informs after.writes driverId companyId
      (read.db.accountUsers.rows.filter fun account => account.isNotified companyId)
  owned : ∃ lock : Sent, lock ∈ after.trace ∧ ∃ row ∈ lock.world.db.drivers,
    row.id = driverId ∧ row.companyId = companyId

/-- A write that locks nobody, or one that locks a driver in a transaction that tells. -/
def Write.Notified (after : Session) (write : Write) : Prop :=
  write.LocksNobody ∨ ∃ loaded current companyId, write = .updateDriver loaded current ∧
    (loaded.isAuthorizedToDrive = true → Notifies after loaded.id companyId)

theorem tellWrites_lockNobody {companyId triggerCheckId : Uuid} {recipients : List Recipient}
    {createdAt : Instant} {driver : Driver} {case : EscalationCase} {alert : Sent}
    {ids : List Uuid} : ∀ write ∈ tellWrites companyId triggerCheckId recipients createdAt driver
      case alert ids, write.LocksNobody := by
  intro write member
  rcases List.mem_append.mp member with isMessage | isAlert
  · obtain ⟨message, _, rfl⟩ := List.mem_map.mp isMessage
    trivial
  · rw [List.mem_singleton.mp isAlert]
    trivial

section Requests

variable {sha256 : Str → Str} {validateKennzeichen : Str → Option Str}

theorem RecordsFailed.notified {user : AccountUser} {driverId : Uuid} {performedOn : Date}
    {session after : Session} (remembers : session.Remembers) (fresh : session.writes = [])
    (unsaved : session.connection.savepoint = none)
    (pinned : session.connection.tenant = some user.companyId)
    (records : RecordsFailed sha256 user driverId performedOn session (.ok ()) after) :
    ∀ write ∈ after.writes, write.Notified after := by
  generalize isOk : (Except.ok () : Except Error Unit) = answer at records
  cases records with
  | refused => cases isOk
  | escalated log tip defaults write told trigger appends valid asked triggered outcome _ runs =>
      cases outcome with
      | error error => cases isOk
      | ok result =>
          have remembersLog := (((((remembers.saw tip).saw defaults).wrote write
            (.insertLog log) (by simp [Write.table])).saw told).saw trigger)
          obtain ⟨grown, deed, _⟩ := runs.deed remembersLog unsaved
          intro executed member
          rcases deed with ⟨kept, _⟩ | ⟨driver, row, load, lock, now, alert, case, ids, staged,
            locksOut, _, writes, _⟩
          · -- a replay has rolled everything but the evidence back
            have same : after.writes = [.insertLog log] := by
              rw [Session.writes, kept, ← Session.writes]
              simp [fresh]
            rw [same] at member
            exact .inl (List.mem_singleton.mp member ▸ trivial)
          · have whole : after.writes = .insertLog log :: staged := by
              simpa [fresh] using writes
            have inTrace : told ∈ after.trace := grown.subset (by simp)
            have tenant : told.connection.tenant = some user.companyId := by
              rw [asked.connection, ← pinned]
              rfl
            have notifies : driver.isAuthorizedToDrive = true →
                Notifies after driver.id user.companyId := by
              intro cleared
              refine ⟨⟨told, inTrace, asked.statement, ?_⟩, lock, locksOut.locked, row, ?_⟩
              · rw [whole]
                refine locksOut.informs log ?_ cleared
                rw [← notifiedUsers_pinned tenant, List.flatMap_map]
                rfl
              · have key := Table.key_of_find locksOut.committed
                exact ⟨Table.mem_of_find locksOut.committed, key, locksOut.company⟩
            rw [whole, locksOut.staged, lockWrites] at member
            rcases List.mem_cons.mp member with isLog | member
            · exact .inl (isLog ▸ trivial)
            rcases List.mem_append.mp member with locks | tells
            · rcases List.mem_append.mp locks with update | opens
              · exact .inr ⟨driver, _, user.companyId, Driver.mem_update update, notifies⟩
              · exact .inl (List.mem_singleton.mp opens ▸ trivial)
            · exact .inl (tellWrites_lockNobody executed tells)

def Request.callsE6 : Request → Bool
  | .runE6 _ _ _ _ _ => true
  | _ => false

/-- Where E6 runs for failed checks only, what is locked is told. -/
theorem request_notified {request : Request} (viaCheck : request.callsE6 = false) {world : World}
    {result : Outcome} {after : Session}
    (ended : (system sha256 validateKennzeichen).Ends
      ((system sha256 validateKennzeichen).program request)
      ((system sha256 validateKennzeichen).opening world request) (.ok result) after) :
    ∀ write ∈ after.writes, write.Notified after := by
  by_cases escalates : request.Escalates
  swap
  · exact fun write member => .inl ((request_locksNobody escalates ended).writes write member)
  cases request with
  | recordDriverCheck user driverId data =>
      have isFailed : submitted data = resultFailed := escalates
      change postgres.Ends (transaction ((Request.recordDriverCheck user driverId data).body sha256
        validateKennzeichen)) (Session.opened (some user.companyId) world.clock) (.ok result)
          after at ended
      rcases transaction_ends ended with ⟨_, middle, same, body, executed⟩ | ⟨_, same, _⟩
      swap
      · cases same
      rcases ends_return.mp body with ⟨response, _, ran⟩ | ⟨_, same, _⟩
      swap
      · cases same
      have checks := recordDriverCheck_ends sha256 user rfl rfl ran
      generalize isOk : (Except.ok response : Except Error Response) = answer at checks
      cases checks with
      | forbidden => cases isOk
      | undated => cases isOk
      | absent performedOn clock load opens missing =>
          cases executed.of_clean rfl
          simp
      | failed performedOn clock load row opens found result outcome _ records =>
          cases outcome with
          | error error => cases isOk
          | ok done =>
              obtain ⟨_, _, remembers⟩ := opens.remembers found
              obtain ⟨_, clean⟩ := records.deed remembers rfl rfl
              cases executed.of_clean (clean rfl)
              exact records.notified remembers rfl rfl rfl
      | passed performedOn clock load row opens found other _ records => exact absurd isFailed other
      | unpassed other => exact absurd isFailed other
  | runE6 tenant driverId companyId triggerCheckId recipients => cases viaCheck
  | _ => exact escalates.elim

end Requests

/-! ### Where a message goes -/

/-- The row is the message, whatever the relay has noted in it. -/
structure OutboxMessage.Stems (row message : OutboxMessage) : Prop where
  id : row.id = message.id
  companyId : row.companyId = message.companyId
  createdAt : row.createdAt = message.createdAt

theorem insertedAlert_after {writes : List Write} {db : Db} {alert : SystemAlert}
    (replays : Journal.Replays writes db) (inserted : .insertAlert alert ∈ writes) :
    alert ∈ (db.after writes).alerts := by
  induction writes generalizing db with
  | nil => cases inserted
  | cons write rest inductionHypothesis =>
      rw [Db.after_cons]
      rcases List.mem_cons.mp inserted with rfl | later
      · have member : alert ∈ ((Write.insertAlert alert).apply db).alerts :=
          Table.mem_insert.mpr (.inr ⟨rfl, insertAlert_valid replays.1⟩)
        exact (persists_after replays.2).alerts.subset member
      · exact inductionHypothesis replays.2 later

/-- A committed transaction has buried the message and raised a critical alert about it. -/
def Buried (db : Db) (later : List Done) (message : OutboxMessage) : Prop :=
  ∃ done ∈ later, Done.isCommitted done = true ∧
    (∃ loaded current, .updateOutbox loaded current ∈ Session.writes (Ended.transaction done) ∧
      loaded.id = message.id ∧ loaded.deadLetteredAt = none ∧ current.deadLetteredAt.isSome) ∧
    ∃ alert ∈ db.alerts, alert.undeliverableFor message.companyId = true ∧
      .insertAlert alert ∈ Session.writes (Ended.transaction done)

/-- The message waits, has been sent, has been buried, or has been purged. -/
inductive Fate (db : Db) (later : List Done) (message : OutboxMessage) : Prop
  | pending (row : OutboxMessage) (member : row ∈ db.outbox) (stems : row.Stems message)
      (notSent : row.sentAt = none) (notDead : row.deadLetteredAt = none)
  | sent (row : OutboxMessage) (member : row ∈ db.outbox) (stems : row.Stems message)
      (isSent : row.sentAt.isSome)
  | buried (row : OutboxMessage) (member : row ∈ db.outbox) (stems : row.Stems message)
      (isDead : row.deadLetteredAt.isSome) (buried : Buried db later message)
  | purged (purge : Done) (member : purge ∈ later) (committed : Done.isCommitted purge = true)
      (deletes : Done.deletes purge message.id = true) (purged : Done.Purged purge message)

theorem Done.Purged.stems {done : Done} {row message : OutboxMessage} (stems : row.Stems message)
    (purged : Done.Purged done row) : Done.Purged done message := by
  cases purged with
  | pruned isPrune now today cutoff sent asked isToday isCutoff old =>
      exact .pruned isPrune now today cutoff sent asked isToday isCutoff (stems.createdAt ▸ old)
  | tombstoned isTombstone claim threshold company sent asked isDue own =>
      exact .tombstoned isTombstone claim threshold company sent asked isDue
        (stems.companyId ▸ own)

theorem Buried.mono {db after : Db} {later : List Done} {message : OutboxMessage} (more : List Done)
    (alerts : ∀ alert ∈ db.alerts, alert ∈ after.alerts) (buried : Buried db later message) :
    Buried after (later ++ more) message := by
  obtain ⟨done, member, committed, update, alert, inDb, rest⟩ := buried
  exact ⟨done, List.mem_append_left _ member, committed, update, alert, alerts alert inDb, rest⟩

theorem Fate.kept {db after : Db} {later : List Done} {message : OutboxMessage}
    (more : List Done) (alerts : ∀ alert ∈ db.alerts, alert ∈ after.alerts)
    (rows : ∀ row ∈ db.outbox, row.Stems message → row ∈ after.outbox)
    (fate : Fate db later message) : Fate after (later ++ more) message := by
  cases fate with
  | pending row member stems notSent notDead =>
      exact .pending row (rows row member stems) stems notSent notDead
  | sent row member stems isSent => exact .sent row (rows row member stems) stems isSent
  | buried row member stems isDead buried =>
      exact .buried row (rows row member stems) stems isDead (buried.mono more alerts)
  | purged purge member committed deletes purged =>
      exact .purged purge (List.mem_append_left _ member) committed deletes purged

/-- A claimed message is sent, waits for its next attempt, or is buried with an alert. -/
theorem Cycle.fate {done : Done} {result : Outcome} (cycle : Cycle done (.ok result))
    (committed : Done.isCommitted done = true) (ready :
      Journal.Replays (Session.writes done.transaction) done.world.db) (later : List Done)
    {row message : OutboxMessage} (member : row ∈ done.batch) (stems : row.Stems message) :
    Fate done.result (later ++ [done]) message := by
  obtain ⟨now, due⟩ := cycle.due row member
  obtain ⟨notSent, notDead⟩ := isDue_open due
  obtain ⟨own, ownWrites, relaysRow, _, executed, leaves⟩ := cycle.relayed member
  have stored : ∀ current, .updateOutbox row current ∈ ownWrites →
      OutboxMessage.changed row current row ∈ done.result.outbox :=
    fun current update => Table.mem_of_find (leaves current update)
  cases relaysRow with
  | delivered send now asked timed messageId outcome =>
      refine .sent _ (stored _ List.mem_cons_self) ⟨stems.id, stems.companyId, stems.createdAt⟩ ?_
      simp [OutboxMessage.changed, column, notSent]
  | refused send now asked timed error outcome delay inRange =>
      refine .pending _ (stored _ List.mem_cons_self)
        ⟨stems.id, stems.companyId, stems.createdAt⟩ ?_ ?_
      · simp [OutboxMessage.changed, column, OutboxMessage.failed, notSent]
      · simp [OutboxMessage.changed, column, OutboxMessage.failed, notDead]
  | exhausted send now alert asked timed drawn error outcome spent =>
      refine .buried _ (stored _ List.mem_cons_self)
        ⟨stems.id, stems.companyId, stems.createdAt⟩ ?_ ⟨done, by simp, committed,
          ⟨row, _, executed List.mem_cons_self, stems.id, notDead, rfl⟩, _, ?_, ?_,
          executed (List.mem_cons_of_mem _ List.mem_cons_self)⟩
      · simp [OutboxMessage.changed, column, OutboxMessage.failed, notDead]
      · exact insertedAlert_after ready (executed (List.mem_cons_of_mem _ List.mem_cons_self))
      · rw [undeliverableAlert_for, stems.companyId]
        exact decide_eq_true rfl

section Runs

variable {sha256 : Str → Str} {validateKennzeichen : Str → Option Str}
variable {policy : Policy World Memory Connection Statement Env Request}
variable {Inv : World → Prop} {Later : World → World → Prop}
variable {history later : List Done} {done : Done} {message : OutboxMessage}

theorem Fate.deleted
    (concluded : Over (system sha256 validateKennzeichen) policy readCommitted Inv Later done.world
      done) (committed : done.isCommitted = true) (deletes : done.deletes message.id = true)
    (fate : Fate done.world.db later message) (db : Db) : Fate db (later ++ [done]) message := by
  obtain ⟨result, well⟩ := committed_well committed
  obtain ⟨write, executed, isDeletion⟩ := List.any_eq_true.mp deletes
  have purged : ∀ row ∈ done.world.db.outbox, row.Stems message → Done.Purged done message := by
    intro row member stems
    cases write with
    | deleteOutbox ids =>
        refine Done.Purged.stems stems (Over.purged concluded well (Table.find_of_mem member)
          executed ?_)
        rw [stems.id]
        simpa using isDeletion
    | _ => cases isDeletion
  cases fate with
  | pending row member stems notSent notDead =>
      exact .purged done (by simp) committed deletes (purged row member stems)
  | sent row member stems isSent =>
      exact .purged done (by simp) committed deletes (purged row member stems)
  | buried row member stems isDead buried =>
      exact .purged done (by simp) committed deletes (purged row member stems)
  | purged purge member earlier gone by_purge =>
      exact .purged purge (List.mem_append_left _ member) earlier gone by_purge

theorem Fate.leave
    (concluded : Over (system sha256 validateKennzeichen) policy readCommitted Inv Later done.world
      done) (fate : Fate done.world.db later message) :
    Fate ((system sha256 validateKennzeichen).leave done).db (later ++ [done]) message := by
  cases isCommitted : done.isCommitted with
  | false =>
      rw [leave_uncommitted isCommitted]
      exact fate.kept [done] (fun _ member => member) fun _ member _ => member
  | true =>
      obtain ⟨left, ready, others⟩ := Over.committed_cases concluded isCommitted
      rw [left]
      change Fate done.result (later ++ [done]) message
      have alerts : ∀ alert ∈ done.world.db.alerts, alert ∈ done.result.alerts :=
        fun alert member => (persists_after ready).alerts.subset member
      rcases others with ⟨_, result, cycle⟩ | ⟨_, all⟩
      · by_cases inBatch : message.id ∈ done.batch.map OutboxMessage.id
        · obtain ⟨claimed, claimedIn, same⟩ := List.mem_map.mp inBatch
          obtain ⟨now, due⟩ := cycle.due claimed claimedIn
          obtain ⟨notSent, notDead⟩ := isDue_open due
          have isClaimed : ∀ row ∈ done.world.db.outbox, row.Stems message → row = claimed :=
            fun row member stems => Table.eq_of_key member
              (Table.mem_of_find (cycle.stored claimed claimedIn)) (stems.id.trans same.symm)
          cases fate with
          | pending row member stems _ _ =>
              have isRow := isClaimed row member stems
              subst isRow
              exact cycle.fate isCommitted ready later claimedIn stems
          | sent row member stems isSent =>
              rw [isClaimed row member stems, notSent] at isSent
              cases isSent
          | buried row member stems isDead _ =>
              rw [isClaimed row member stems, notDead] at isDead
              cases isDead
          | purged purge member earlier gone byPurge =>
              exact .purged purge (List.mem_append_left _ member) earlier gone byPurge
        · refine fate.kept [done] alerts fun row member stems => ?_
          have unclaimed : row.id ∉ done.batch.map OutboxMessage.id := stems.id ▸ inBatch
          exact Table.mem_of_find
            ((cycle.handles.2.2 row.id unclaimed).trans (Table.find_of_mem member))
      · by_cases deletes : done.deletes message.id = true
        · exact fate.deleted concluded isCommitted deletes done.result
        · refine fate.kept [done] alerts fun row member stems => ?_
          rcases enqueued_find all (Table.find_of_mem member) with still | ⟨ids, executed, inside⟩
          · exact Table.mem_of_find still
          · refine absurd ?_ deletes
            rw [Done.deletes, List.any_eq_true, ← stems.id]
            exact ⟨_, executed, by simpa using inside⟩

/-- The runs in which E6 runs for failed checks only. -/
def checksEscalate : Policy World Memory Connection Statement Env Request where
  starts _ request := request.callsE6 = false
  calls _ _ := True
  commits _ _ _ := True
  aborts _ _ _ := True

/-- A committed transaction has locked the driver and told about it, and every message it has
staged has had a fate since. -/
def ToldAbout (db : Db) (history : List Done) (driver : Driver) : Prop :=
  ∃ past done later, history = past ++ done :: later ∧ Done.isCommitted done = true ∧
    Notifies (Ended.transaction done) driver.id driver.companyId ∧
    ∀ message ∈ (Session.writes (Ended.transaction done)).filterMap Write.message,
      Fate db later message

theorem ToldAbout.leave {driver : Driver}
    (concluded : Over (system sha256 validateKennzeichen) policy readCommitted Inv Later done.world
      done) (informed : ToldAbout done.world.db history driver) :
    ToldAbout ((system sha256 validateKennzeichen).leave done).db (history ++ [done]) driver := by
  obtain ⟨past, locker, later, whole, committed, notifies, fates⟩ := informed
  refine ⟨past, locker, later ++ [done], ?_, committed, notifies, fun message member => ?_⟩
  · rw [whole, List.append_assoc, List.cons_append]
  · exact (fates message member).leave concluded

theorem fate_staged (ready : Journal.Replays (Session.writes done.transaction) done.world.db)
    (enqueues : ∀ write ∈ Session.writes done.transaction, write.Enqueues)
    (keeps : ∀ write ∈ Session.writes done.transaction, write.KeepsRows)
    (staged : message ∈ (Session.writes done.transaction).filterMap Write.message) :
    Fate done.result [] message := by
  have all : ∀ write ∈ Session.writes done.transaction, write.KeepsOutbox := by
    intro write member
    have first := enqueues write member
    have second := keeps write member
    cases write <;> trivial
  have stored := ((outbox_grows ready all).2.1 message staged).1
  have fresh : message.Fresh := enqueues _ (mem_message.mp staged)
  exact .pending message stored ⟨rfl, rfl, rfl⟩ fresh.sentAt fresh.deadLetteredAt

theorem Request.Escalates.keeps {request : Request} (escalates : request.Escalates) :
    ¬ request.Purges := by
  cases request <;> first | exact escalates.elim | exact fun purges => purges

theorem Request.Escalates.notRelay {request : Request} (escalates : request.Escalates) :
    request ≠ .relayOutbox := by
  rintro rfl
  exact escalates

theorem Notifies.company {driverId companyId : Uuid}
    (concluded : Over (system sha256 validateKennzeichen) policy readCommitted Inv
      (fun before after => Persists before.db after.db) done.world done)
    (ready : Journal.Replays (Session.writes done.transaction) done.world.db)
    (notifies : Notifies done.transaction driverId companyId) {driver : Driver}
    (member : driver ∈ done.result.drivers) (own : driver.id = driverId) :
    driver.companyId = companyId := by
  obtain ⟨_, _, start, _, _, chain, _⟩ := concluded
  obtain ⟨lock, inTrace, row, rowIn, isRow, company⟩ := notifies.owned
  obtain ⟨_, _, _, _, upTo⟩ := chain.seen lock inTrace
  have persists : Persists lock.world.db done.result := upTo.trans (persists_after ready)
  obtain ⟨later, laterIn, follows⟩ := persists.drivers row rowIn
  have isLater : driver = later :=
    Table.eq_of_key member laterIn (own.trans (isRow.symm.trans follows.id.symm))
  rw [isLater, follows.companyId, company]

/-- A history has informed about every locked driver. -/
def NobodyInSilence (world : World) (history : List Done) : Prop :=
  ∀ driver ∈ world.db.drivers, driver.isAuthorizedToDrive = false →
    ToldAbout world.db history driver

theorem NobodyInSilence.committed
    (concluded : Over (system sha256 validateKennzeichen) checksEscalate readCommitted
      (fun _ => True) (fun before after => Persists before.db after.db) done.world done)
    (committed : done.isCommitted = true) (known : NobodyInSilence done.world history) :
    NobodyInSilence ((system sha256 validateKennzeichen).leave done) (history ++ [done]) := by
  intro driver member locked
  obtain ⟨left, ready, _⟩ := Over.committed_cases concluded committed
  rw [left] at member
  obtain ⟨result, well⟩ := committed_well committed
  have isOver := concluded
  obtain ⟨_, _, start, viaCheck, _, chain, ends, _⟩ := concluded
  have ended := ends _ well
  have notified := request_notified viaCheck ended
  have cleared : ∀ row, .insertDriver row ∈ Session.writes done.transaction →
      row.isAuthorizedToDrive = true := by
    intro row inserted
    rcases notified _ inserted with nobody | ⟨_, _, _, same, _⟩
    · exact nobody
    · cases same
  rcases locked_origin cleared member locked with ⟨row, rowIn, sameId, sameCompany, wasLocked⟩ |
    ⟨loaded, current, executed, own, wasCleared, isLocked⟩
  · obtain ⟨past, locker, later, whole⟩ := (known row rowIn wasLocked).leave isOver
    rw [sameId, sameCompany] at whole
    exact ⟨past, locker, later, whole⟩
  · have escalates : Request.Escalates done.request := by
      by_contra calm
      have nobody := (request_locksNobody calm ended).writes _ executed
      rw [nobody wasCleared] at isLocked
      cases isLocked
    rcases notified _ executed with nobody | ⟨_, _, companyId, same, notifies⟩
    · rw [nobody wasCleared] at isLocked
      cases isLocked
    · cases same
      have notifies := notifies wasCleared
      rw [own] at notifies
      have company := notifies.company isOver ready member rfl
      rw [← company] at notifies
      refine ⟨history, done, [], rfl, committed, notifies, fun message staged => ?_⟩
      rw [left]
      exact fate_staged ready (request_enqueues escalates.notRelay ended).writes
        (request_keepsRows escalates.keeps ended).writes staged

theorem NobodyInSilence.leave
    (concluded : Over (system sha256 validateKennzeichen) checksEscalate readCommitted
      (fun _ => True) (fun before after => Persists before.db after.db) done.world done)
    (known : NobodyInSilence done.world history) :
    NobodyInSilence ((system sha256 validateKennzeichen).leave done) (history ++ [done]) := by
  by_cases committed : done.isCommitted = true
  · exact known.committed concluded committed
  · intro driver member locked
    rw [leave_uncommitted (by simpa using committed)] at member
    exact (known driver member locked).leave concluded

end Runs

section Told

variable (sha256 : Str → Str) (validateKennzeichen : Str → Option Str)

/-- **Locked implies told.** In every state that an interleaving reaches in which E6 runs for
failed checks only, one commit has locked each locked driver and told everybody who was to be
notified, and each of its messages waits, has been sent, is buried with an alert, or was
purged. -/
theorem locked_implies_told {world : World}
    (cleared : ∀ driver ∈ world.db.drivers, driver.isAuthorizedToDrive = true)
    {config : Config World Memory Connection Statement Answer Env Error Request Outcome}
    (reached : Reachable (system sha256 validateKennzeichen) checksEscalate ⟨world, [], []⟩
      config) :
    ∀ driver ∈ config.world.db.drivers, driver.isAuthorizedToDrive = false →
      ToldAbout config.world.db config.ended driver := by
  have known : NobodyInSilence config.world config.ended := by
    refine Sound.recorded (system_laws sha256 validateKennzeichen)
      (persistDiscipline sha256 validateKennzeichen checksEscalate) (fun _ _ known => known)
      NobodyInSilence.leave (Sound.quiet trivial) ?_ reached
    intro driver member locked
    rw [cleared driver member] at locked
    cases locked
  exact known

end Told

/-- A FAILED check alone. -/
theorem locked_implies_told_failed :
    ∃ config, Reachable (system id some) checksEscalate ⟨fleetWorld, [], []⟩ config ∧
      ∃ driver ∈ config.world.db.drivers, driver.isAuthorizedToDrive = false ∧
        ToldAbout config.world.db config.ended driver := by
  have ran : ((system id some).checkedSchedule
      (Policy.check (fun _ request => !request.callsE6) (fun _ _ => true) (fun _ _ _ => true) true)
      ⟨fleetWorld, [], []⟩
      (.start (fleetCheck "FAILED".toList) :: fleetRun 0 1 46 ++ [.finish 0])).any (fun config =>
        config.world.db.drivers.rows.any fun driver => !driver.isAuthorizedToDrive) = true := by
    decide +kernel
  obtain ⟨config, ran, found⟩ := (Option.any_eq_true _ _).mp ran
  obtain ⟨driver, member, locked⟩ := List.any_eq_true.mp found
  have reached : Reachable (system id some) checksEscalate ⟨fleetWorld, [], []⟩ config :=
    Reachable.of_checked (fun checked => Policy.allows_of_check
      (fun _ _ viaCheck => (Bool.not_eq_true' _).mp viaCheck) (fun _ _ _ => trivial)
      (fun _ _ _ _ => trivial) (fun _ _ _ _ => trivial) checked) ran
  have cleared : ∀ driver ∈ fleetWorld.db.drivers, driver.isAuthorizedToDrive = true := by
    intro driver member
    have isDriver : driver ∈ [fleetDriver] := member
    rw [List.mem_singleton.mp isDriver]
    rfl
  have isLocked : driver.isAuthorizedToDrive = false := by simpa using locked
  exact ⟨config, reached, driver, member, isLocked,
    locked_implies_told id some cleared reached driver member isLocked⟩

end Fristenwaechter
