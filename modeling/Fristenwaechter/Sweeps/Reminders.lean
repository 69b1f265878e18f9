import Fristenwaechter.Lockout.Safety
import Fristenwaechter.Sweeps.Enqueue

/-!
Owns the reminder sweep over serial runs: a run leaves the reminder of its day's notch
in the outbox for every contact, enqueues nothing else, and no reminder is enqueued
twice, also across the prune of old rows.
-/

namespace Fristenwaechter

open Library (Ended Engine Journal Served Serial Table)
open Library.Program (forEach)

variable {session after : Session} {db : Db}

/-- A session of a job that only enqueues. -/
structure Session.OnlyEnqueues (session : Session) : Prop where
  tenant : session.connection.tenant = none
  made : ∀ write ∈ session.made, write.table = .outbox

theorem Session.OnlyEnqueues.later {allowed : Write → Prop}
    (enqueues : session.OnlyEnqueues) (may : ∀ write, allowed write → write.table = .outbox)
    (adds : session.Adds allowed after) : after.OnlyEnqueues := by
  refine ⟨adds.tenant.trans enqueues.tenant, fun write member => ?_⟩
  rcases adds.added write member with old | new
  · exact enqueues.made write old
  · exact may write new

/-- How an account is notified. -/
def AccountUser.recipient (user : AccountUser) : Recipient :=
  ⟨some user.email, user.phoneE164⟩

theorem resolveRecipients_adds {companyId : Uuid} {recipients : List Recipient}
    (ended : postgres.Ends (resolveRecipients companyId) session (.ok recipients) after) :
    session.Adds (fun _ => False) after ∧
      ∀ db : Db, session.OnlyEnqueues → (∀ entry ∈ after.trace, entry.world.db = db) →
        recipients = (db.accountUsers.rows.filter fun user => user.isNotified companyId).map
          AccountUser.recipient := by
  rcases ends_then.mp ended with ⟨users, read, first, done⟩ | ⟨_, same, _⟩
  swap
  · cases same
  obtain ⟨isRecipients, rfl⟩ := done
  have reads : Adding (fun _ => False) (select (.notifiedUsers companyId)) :=
    adding_read (by simp) (by simp) fun _ may => may
  refine ⟨reads _ _ _ first, fun db enqueues alone => ?_⟩
  rcases select_ends first with ⟨middle, executed, sent⟩ | ⟨_, same, _⟩
  swap
  · cases same
  obtain ⟨entry, asked, isUsers, rfl⟩ := sends_notifiedUsers sent
  have flushed : session.Adds (fun _ => False) middle := .flushed executed
  have others : ∀ write ∈ middle.writes, write.table ≠ .accountUser := by
    intro write member
    rcases flushed.added write (List.mem_append_left _ member) with old | none
    · rw [enqueues.made write old]
      decide
    · exact none.elim
  have sees : ∀ company, entry.connection.sees company = true := by
    intro company
    have tenant : entry.connection.tenant = none := by
      rw [asked.connection, flushed.tenant, enqueues.tenant]
    unfold Connection.sees
    rw [tenant]
  have isList : users = db.accountUsers.rows.filter fun user => user.isNotified companyId := by
    rw [Except.ok.inj isUsers, Sent.notifiedUsers, asked.db, alone entry (by simp),
      Db.after_accountUsers _ others]
    simp only [sees, Bool.true_and]
    rfl
  rw [← isList]
  exact Except.ok.inj isRecipients

/-- A reminder of one OPEN deadline on a day. -/
inductive RemindsOf (today : Date) (startedAt : Instant) (deadline : Deadline) : Write → Prop
  | message (token : Str) (display : Int)
      (notch : reminderNotch deadline.dueOn today = some (token, display))
      (subject : List (Str × Json)) (named : NamesSubject subject) (id : Uuid)
      (contact : OutboxChannel × Str) :
      RemindsOf today startedAt deadline
        (.insertOutbox (deadline.message display subject token id startedAt contact))

theorem RemindsOf.table {today : Date} {startedAt : Instant} {deadline : Deadline} {write : Write}
    (reminds : RemindsOf today startedAt deadline write) : write.table = .outbox := by
  cases reminds
  rfl

theorem adding_subjectContext {allowed : Write → Prop} (deadline : Deadline) :
    Adding allowed (subjectContext deadline) := by
  unfold subjectContext
  split
  · exact adding_then (adding_getDriver _) fun _ => adding_pure _
  · exact adding_then (adding_getVehicle _) fun _ => adding_pure _

/-- The notified contacts of a company have the reminder's key. -/
def Session.Reminded (session : Session) (db : Db) (today : Date) (deadline : Deadline) : Prop :=
  ∀ token display, reminderNotch deadline.dueOn today = some (token, display) →
    ∀ user ∈ db.accountUsers, user.isNotified deadline.companyId = true →
      ∀ contact ∈ user.recipient.contacts,
        session.Queues db (contactKey (reminderEvent deadline.id token) contact)

theorem Session.Reminded.later {allowed : Write → Prop} {today : Date} {deadline : Deadline}
    (reminded : session.Reminded db today deadline) (adds : session.Adds allowed after) :
    after.Reminded db today deadline :=
  fun token display notch user member notified contact isContact =>
    (reminded token display notch user member notified contact isContact).later adds

theorem remind_adds {today : Date} {deadline : Deadline}
    (ended : postgres.Ends (remind today deadline) session (.ok ()) after) :
    session.Adds (RemindsOf today session.connection.startedAt deadline) after ∧
      (session.OnlyEnqueues → (∀ entry ∈ after.trace, entry.world.db = db) →
        after.Reminded db today deadline) := by
  unfold remind at ended
  split at ended
  · rename_i none
    obtain ⟨_, rfl⟩ := ended
    refine ⟨.refl _, fun _ _ token display notch => ?_⟩
    rw [none] at notch
    cases notch
  · rename_i token display notch
    rcases ends_then.mp ended with ⟨subject, first, reads, rest⟩ | ⟨_, same, _⟩
    swap
    · cases same
    rcases ends_then.mp rest with ⟨recipients, second, resolves, enqueued⟩ | ⟨_, same, _⟩
    swap
    · cases same
    have named := subjectContext_returns reads
    have firstAdds : session.Adds (fun _ => False) first := adding_subjectContext _ _ _ _ reads
    obtain ⟨secondAdds, isRecipients⟩ := resolveRecipients_adds resolves
    obtain ⟨lastAdds, queues⟩ := enqueueForAll_adds enqueued
    have start : second.connection.startedAt = session.connection.startedAt :=
      (firstAdds.trans secondAdds).startedAt
    rw [start] at lastAdds
    refine ⟨(firstAdds.mono fun _ none => none.elim).trans
      ((secondAdds.mono fun _ none => none.elim).trans (lastAdds.mono ?_)), ?_⟩
    · rintro write ⟨id, contact, member⟩
      exact .message token display notch subject named id contact
    · intro enqueues alone token' display' notch' user member notified contact isContact
      rw [notch] at notch'
      cases notch'
      have isList := isRecipients db (enqueues.later (fun _ none => none.elim) firstAdds)
        fun entry inTrace => alone entry (lastAdds.trace.subset inTrace)
      refine queues db alone contact ?_
      rw [isList]
      refine List.mem_flatMap.mpr ⟨user.recipient, List.mem_map.mpr ⟨user, ?_, rfl⟩, isContact⟩
      exact List.mem_filter.mpr ⟨member, notified⟩

theorem reminders_add {today : Date} {deadlines : List Deadline}
    (ended : postgres.Ends (forEach deadlines (remind today)) session (.ok ()) after) :
    session.Adds (fun write => ∃ deadline ∈ deadlines,
        RemindsOf today session.connection.startedAt deadline write) after ∧
      (session.OnlyEnqueues → (∀ entry ∈ after.trace, entry.world.db = db) →
        ∀ deadline ∈ deadlines, after.Reminded db today deadline) := by
  induction deadlines generalizing session with
  | nil =>
      obtain ⟨_, rfl⟩ := ended
      exact ⟨.refl _, by simp⟩
  | cons deadline rest inductionHypothesis =>
      rcases ends_then.mp ended with ⟨⟨⟩, middle, first, second⟩ | ⟨_, same, _⟩
      swap
      · cases same
      obtain ⟨ownAdds, ownReminded⟩ := remind_adds first
      obtain ⟨restAdds, restReminded⟩ := inductionHypothesis second
      rw [ownAdds.startedAt] at restAdds
      refine ⟨(ownAdds.mono ?_).trans (restAdds.mono ?_), fun enqueues alone other member => ?_⟩
      · exact fun write reminds => ⟨deadline, List.mem_cons_self, reminds⟩
      · rintro write ⟨other, member, reminds⟩
        exact ⟨other, List.mem_cons_of_mem _ member, reminds⟩
      · rcases List.mem_cons.mp member with rfl | member
        · refine Session.Reminded.later (ownReminded enqueues fun entry inTrace => ?_) restAdds
          exact alone entry (restAdds.trace.subset inTrace)
        · exact restReminded (enqueues.later (fun _ reminds => reminds.table) ownAdds) alone other
            member

/-! ### One run -/

theorem sends_openDeadlines {answer : Except Error (List Deadline)}
    (sent : postgres.Sends .openDeadlines session answer after) :
    ∃ entry, session.Asked .openDeadlines entry ∧ after = session.saw entry ∧
      answer = .ok (entry.db.deadlines.rows.filter fun row =>
        entry.connection.sees row.companyId && row.status = .open) := by
  obtain ⟨entry, asked, same, after⟩ := sends_reply (fun _ _ _ => rfl) sent
  refine ⟨entry, asked, after, ?_⟩
  rw [same, Sent.db, asked.connection]
  rfl

/-- A reminder that one run has enqueued on its day. -/
def RemindedOn (db : Db) (today : Date) (createdAt : Instant) (row : OutboxMessage) : Prop :=
  ∃ deadline ∈ db.deadlines, deadline.status = .open ∧ RemindsOf today createdAt deadline
    (.insertOutbox row)

/-- A committed run of the reminder sweep, alone from its start. -/
structure RemindRun (start : World) (done : Done) (now createdAt : Instant) (today : Date) :
    Prop where
  asked : ∃ entry ∈ done.transaction.trace, entry.statement = .now ∧ entry.env.now = now
  since : start.clock ≤ now
  upTo : now ≤ done.world.clock
  before : now < createdAt
  isToday : berlinDate now = some today
  tables : ∀ write ∈ Session.writes done.transaction, write.KeepsOutbox ∧ write.table = .outbox
  messages : ∀ row ∈ done.messages, RemindedOn start.db today createdAt row
  reminded : ∀ deadline ∈ start.db.deadlines, deadline.status = .open →
    ∀ token display, reminderNotch deadline.dueOn today = some (token, display) →
      ∀ user ∈ start.db.accountUsers, user.isNotified deadline.companyId = true →
        ∀ contact ∈ user.recipient.contacts,
          ∃ row ∈ done.result.outbox,
            row.dedupKey = contactKey (reminderEvent deadline.id token) contact

section Run

variable {sha256 : Str → Str} {validateKennzeichen : Str → Option Str}

theorem remindRun_of_served {start : World} {done : Done}
    (served : Served (system sha256 validateKennzeichen) readCommitted start done)
    (isRun : done.request = .sendReminders) {result : Outcome}
    (well : done.outcome = some (.ok result)) :
    ∃ now createdAt today, RemindRun start done now createdAt today := by
  obtain ⟨sameDb, seen⟩ := served_sees served
  have ended := served.ends _ well
  rw [isRun] at ended
  have ends : postgres.Ends (transaction (Request.sendReminders.body sha256 validateKennzeichen))
      (Session.opened none start.clock) (.ok result) done.transaction := ended
  rcases transaction_ends ends with ⟨_, middle, _, body, executed⟩ | ⟨_, same, _⟩
  swap
  · cases same
  rcases ends_return.mp body with ⟨⟨⟩, _, ran⟩ | ⟨_, same, _⟩
  swap
  · cases same
  obtain ⟨clock, timed, ⟨today, isToday, ran⟩ | ⟨_, same, _⟩⟩ := step_todayBerlin ran
  swap
  · cases same
  obtain ⟨begun, opened, ran⟩ := step_begin ran
  rcases ends_then.mp ran with ⟨deadlines, base, first, loop⟩ | ⟨_, same, _⟩
  swap
  · cases same
  change List Deadline at deadlines
  obtain ⟨read, asked, rfl, isDeadlines⟩ :=
    sends_openDeadlines ((select_ends_clean (by rfl)).mp first)
  obtain ⟨adds, reminded⟩ := reminders_add loop
  have made := made_committed executed
  have inTrace : ∀ entry ∈ middle.trace, entry ∈ done.transaction.trace :=
    executed.grown.trace.subset
  have alone : ∀ entry ∈ middle.trace, entry.world.db = start.db :=
    fun entry member => (seen entry (inTrace entry member)).1
  have early : ∀ entry ∈ [clock, begun, read], entry ∈ done.transaction.trace := by
    intro entry member
    refine inTrace entry (adds.trace.subset ?_)
    simpa [Session.opened] using member
  have enqueues : Session.OnlyEnqueues
      ((((Session.opened none start.clock).saw clock).begun begun).saw read) :=
    ⟨rfl, by simp [Session.made, Session.opened, Memory.empty, Session.writes, Journal.writes,
      Session.saw, Session.begun]⟩
  have isList : deadlines = start.db.deadlines.rows.filter fun row => row.status = .open := by
    rw [Except.ok.inj isDeadlines, asked.db, (seen read (early read (by simp))).1]
    have tenant : ∀ company, read.connection.sees company = true := by
      intro company
      rw [asked.connection]
      rfl
    simp only [tenant, Bool.true_and]
    rfl
  have all : ∀ write ∈ Session.writes done.transaction, ∃ deadline ∈ start.db.deadlines,
      deadline.status = .open ∧ RemindsOf today begun.env.now deadline write := by
    intro write member
    rcases adds.added write ((made write).mp member) with old | ⟨deadline, inList, reminds⟩
    · have none : write ∈ ([] : List Write) := old
      cases none
    · rw [isList] at inList
      obtain ⟨inDb, isOpen⟩ := List.mem_filter.mp inList
      exact ⟨deadline, inDb, by simpa using isOpen, reminds⟩
  have keeps : ∀ write ∈ Session.writes done.transaction, write.KeepsOutbox := by
    intro write member
    obtain ⟨deadline, _, _, reminds⟩ := all write member
    cases reminds
    trivial
  have clockIn := early clock (by simp)
  refine ⟨clock.env.now, begun.env.now, today, ⟨clock, clockIn, timed.statement, rfl⟩,
    (seen clock clockIn).2.1, (seen clock clockIn).2.2, ?_, isToday, ?_, ?_, ?_⟩
  · have order : [clock, begun].Sublist done.transaction.trace := by
      have whole : [clock, begun, read] <+: done.transaction.trace :=
        adds.trace.trans executed.grown.trace
      exact (List.IsPrefix.trans ⟨[read], rfl⟩ whole).sublist
    have drifts : (system sha256 validateKennzeichen).Drifts
        ((system sha256 validateKennzeichen).advance clock.world clock.env) begun.world := by
      simpa using served.ordered.sublist order
    exact lt_of_le_of_lt (drifts_iff drifts).2 opened.ticks
  · intro write member
    obtain ⟨deadline, _, _, reminds⟩ := all write member
    exact ⟨keeps write member, reminds.table⟩
  · intro row member
    unfold Done.messages at member
    split at member
    · exact all _ (mem_message.mp member)
    · cases member
  · intro deadline inDb isOpen token display notch user isUser notified contact isContact
    have inList : deadline ∈ (deadlines : List Deadline) := by
      rw [isList]
      exact List.mem_filter.mpr ⟨inDb, by simpa using isOpen⟩
    have ready : Journal.Replays (Session.writes done.transaction) done.world.db := served.ready
    obtain ⟨kept, added, _⟩ := outbox_grows ready keeps
    obtain ⟨row, own, old | inserted⟩ := reminded enqueues alone deadline inList token display notch
      user isUser notified contact isContact
    · exact ⟨row, kept row (sameDb ▸ old), own⟩
    · exact ⟨row, (added row (mem_message.mpr ((made _).mpr inserted))).1, own⟩

/-! ### Whole runs -/

theorem messages_uncommitted {done : Done} (uncommitted : done.isCommitted = false) :
    done.messages = [] := by
  simp [Done.messages, uncommitted]

/-- What a history of reminder sweeps and prunes says. -/
structure Scheduled (start world : World) (history : List Done) : Prop where
  deadlines : world.db.deadlines = start.db.deadlines
  accountUsers : world.db.accountUsers = start.db.accountUsers
  retained : ∀ row ∈ messagesOf history, Retained world row
  dated : ∀ row ∈ messagesOf history, ∃ now today, now < row.createdAt ∧
    berlinDate now = some today ∧ RemindedOn start.db today row.createdAt row
  once : ((messagesOf history).map OutboxMessage.dedupKey).Nodup

/-- Two reminders with one key were enqueued at most 90 days apart. -/
theorem remindedOn_near {db : Db} {one two : Date} {firstAt secondAt : Instant}
    {first second : OutboxMessage} (isOne : RemindedOn db one firstAt first)
    (isTwo : RemindedOn db two secondAt second) (same : first.dedupKey = second.dedupKey) :
    two.toOrdinal ≤ one.toOrdinal + 90 := by
  obtain ⟨deadline, inDb, _, reminds⟩ := isOne
  obtain ⟨other, otherIn, _, otherReminds⟩ := isTwo
  cases reminds with
  | message token display notch subject named id contact =>
      cases otherReminds with
      | message token' display' notch' subject' named' id' contact' =>
          obtain ⟨sameId, sameToken⟩ := reminderKey_inj (colon_not_token notch)
            (colon_not_token notch') same
          have isOther : deadline = other := Table.eq_of_key inDb otherIn sameId
          rw [← isOther, ← sameToken] at notch'
          exact notch_near notch notch'

theorem RemindedOn.createdAt {db : Db} {today : Date} {createdAt : Instant} {row : OutboxMessage}
    (reminded : RemindedOn db today createdAt row) : row.createdAt = createdAt := by
  obtain ⟨_, _, _, reminds⟩ := reminded
  cases reminds
  rfl

theorem Scheduled.remind {start before : World} {done : Done} {history : List Done}
    {now createdAt : Instant} {today : Date} (scheduled : Scheduled start before history)
    (run : RemindRun before done now createdAt today) (committed : done.isCommitted = true)
    (sameDb : done.world.db = before.db) (clock : before.clock ≤ done.world.clock)
    (ready : Journal.Replays (Session.writes done.transaction) done.world.db) :
    Scheduled start { done.world with db := done.result } (history ++ [done]) := by
  obtain ⟨kept, added, distinct⟩ := outbox_grows ready fun write member =>
    (run.tables write member).1
  have messages : done.messages = (Session.writes done.transaction).filterMap Write.message := by
    simp [Done.messages, committed]
  have others : ∀ table, table ≠ .outbox →
      ∀ write ∈ Session.writes done.transaction, write.table ≠ table := by
    intro table other write member same
    exact other (same.symm.trans (run.tables write member).2)
  have dated : ∀ row ∈ done.messages, RemindedOn start.db today row.createdAt row := by
    intro row member
    have reminded := run.messages row member
    rw [reminded.createdAt]
    unfold RemindedOn at reminded ⊢
    rwa [scheduled.deadlines] at reminded
  constructor
  · change (done.world.db.after _).deadlines = _
    rw [Db.after_deadlines _ (others _ (by decide)), sameDb, scheduled.deadlines]
  · change (done.world.db.after _).accountUsers = _
    rw [Db.after_accountUsers _ (others _ (by decide)), sameDb, scheduled.accountUsers]
  · intro row member
    rw [messagesOf_append] at member
    rcases List.mem_append.mp member with old | new
    · exact (scheduled.retained row old).later (fun row inDb => kept row (sameDb ▸ inDb)) clock
    · exact .inl (added row (messages ▸ new)).1
  · intro row member
    rw [messagesOf_append] at member
    rcases List.mem_append.mp member with old | new
    · exact scheduled.dated row old
    · refine ⟨now, today, ?_, run.isToday, dated row new⟩
      rw [(run.messages row new).createdAt]
      exact run.before
  · rw [messagesOf_append, List.map_append]
    refine List.nodup_append.mpr ⟨scheduled.once, by rw [messages]; exact distinct, ?_⟩
    intro key inOld other inNew same
    obtain ⟨first, firstIn, rfl⟩ := List.mem_map.mp inOld
    obtain ⟨second, secondIn, rfl⟩ := List.mem_map.mp inNew
    rcases scheduled.retained first firstIn with
      still | ⟨pruned, day, cutoff, upTo, isDay, isCutoff, old⟩
    · exact (added second (messages ▸ secondIn)).2 first (sameDb ▸ still) same
    · obtain ⟨earlier, one, isEarlier, isOne, isFirst⟩ := scheduled.dated first firstIn
      have apart := retention isOne isEarlier isDay isCutoff old (upTo.trans run.since) run.isToday
      have near := remindedOn_near isFirst (dated second secondIn) same
      omega

theorem Scheduled.prune {start before : World} {done : Done} {history : List Done} {now : Instant}
    {today : Date} {cutoff : Instant} (scheduled : Scheduled start before history)
    (prunes : Prunes before done now today cutoff) (sameDb : done.world.db = before.db) :
    Scheduled start { done.world with db := done.result } (history ++ [done]) := by
  have apart : ∀ table, table ≠ .outbox →
      ∀ write ∈ Session.writes done.transaction, write.table ≠ table := by
    intro table other write member same
    exact other (same.symm.trans (prunes.tables write member))
  constructor
  · change (done.world.db.after _).deadlines = _
    rw [Db.after_deadlines _ (apart _ (by decide)), sameDb, scheduled.deadlines]
  · change (done.world.db.after _).accountUsers = _
    rw [Db.after_accountUsers _ (apart _ (by decide)), sameDb, scheduled.accountUsers]
  · rw [messagesOf_append, prunes.messages, List.append_nil]
    exact fun row member => prunes.retained (scheduled.retained row member)
  · rw [messagesOf_append, prunes.messages, List.append_nil]
    exact scheduled.dated
  · rw [messagesOf_append, prunes.messages, List.append_nil]
    exact scheduled.once

/-- A run leaves the reminder of its day's notch for every contact and has enqueued no
other one. -/
structure Done.Reminds (db : Db) (done : Done) (today : Date) : Prop where
  day : ∃ entry ∈ done.transaction.trace, entry.statement = .now ∧
    berlinDate entry.env.now = some today
  due : ∀ deadline ∈ db.deadlines, deadline.status = .open →
    daysUntil deadline.dueOn today ≤ 90 → ∃ token, Notch deadline.dueOn today token
  left : ∀ deadline ∈ db.deadlines, deadline.status = .open →
    ∀ token, Notch deadline.dueOn today token →
      ∀ user ∈ db.accountUsers, user.isNotified deadline.companyId = true →
        ∀ contact ∈ user.recipient.contacts,
          ∃ row ∈ done.result.outbox,
            row.dedupKey = contactKey (reminderEvent deadline.id token) contact
  only : ∀ row ∈ done.messages, ∃ deadline ∈ db.deadlines, deadline.status = .open ∧
    ∃ token contact, Notch deadline.dueOn today token ∧
      row.channel = contact.1 ∧ row.recipient = contact.2 ∧
      row.dedupKey = contactKey (reminderEvent deadline.id token) contact

theorem RemindRun.reminds {start : World} {done : Done} {now createdAt : Instant} {today : Date}
    (run : RemindRun start done now createdAt today) : Done.Reminds start.db done today := by
  refine ⟨?_, fun _ _ _ soon => notch_exists soon, ?_, ?_⟩
  · obtain ⟨entry, member, isNow, rfl⟩ := run.asked
    exact ⟨entry, member, isNow, run.isToday⟩
  · intro deadline inDb isOpen token notch
    obtain ⟨display, found⟩ := notch_iff.mpr notch
    exact run.reminded deadline inDb isOpen token display found
  · intro row member
    obtain ⟨deadline, inDb, isOpen, reminds⟩ := run.messages row member
    cases reminds with
    | message token display notch subject named id contact =>
        exact ⟨deadline, inDb, isOpen, token, contact, notch_iff.mp ⟨display, notch⟩, rfl, rfl, rfl⟩

theorem Scheduled.time {start before after : World} {history : List Done}
    (scheduled : Scheduled start before history) (sameDb : after.db = before.db)
    (clock : before.clock ≤ after.clock) : Scheduled start after history where
  deadlines := by rw [sameDb, scheduled.deadlines]
  accountUsers := by rw [sameDb, scheduled.accountUsers]
  retained row member :=
    (scheduled.retained row member).later (fun _ inDb => sameDb ▸ inDb) clock
  dated := scheduled.dated
  once := scheduled.once

theorem Scheduled.silent {start world : World} {history : List Done} {done : Done}
    (scheduled : Scheduled start world history) (none : done.messages = []) :
    Scheduled start world (history ++ [done]) := by
  have same : messagesOf (history ++ [done]) = messagesOf history := by
    rw [messagesOf_append, none, List.append_nil]
  exact ⟨scheduled.deadlines, scheduled.accountUsers, same ▸ scheduled.retained,
    same ▸ scheduled.dated, same ▸ scheduled.once⟩

theorem Scheduled.leave {start before : World} {done : Done} {history : List Done}
    (served : Served (system sha256 validateKennzeichen) readCommitted before done)
    (only : done.request = .sendReminders ∨ done.request = .pruneOldOutbox)
    (scheduled : Scheduled start before history) :
    Scheduled start ((system sha256 validateKennzeichen).leave done) (history ++ [done]) := by
  obtain ⟨sameDb, clock⟩ := drifts_iff served.drifts
  by_cases committed : done.isCommitted = true
  · obtain ⟨result, well⟩ := committed_well committed
    rw [leave_committed well]
    rcases only with isRun | isPrune
    · obtain ⟨now, createdAt, today, run⟩ := remindRun_of_served served isRun well
      exact scheduled.remind run committed sameDb clock served.ready
    · obtain ⟨now, today, cutoff, prunes⟩ := prunes_of_served served isPrune well
      exact scheduled.prune prunes sameDb
  · have uncommitted : done.isCommitted = false := by simpa using committed
    rw [leave_uncommitted uncommitted]
    exact (scheduled.time sameDb clock).silent (messages_uncommitted uncommitted)

def RemindersHeld (start world : World) (history : List Done) : Prop :=
  (∀ done ∈ history, Ended.request done = .sendReminders ∨ Ended.request done = .pruneOldOutbox) →
    Scheduled start world history ∧
      ∀ done ∈ history, Ended.request done = .sendReminders → Done.isCommitted done = true →
        ∃ today, Done.Reminds start.db done today

/-- **Reminders.** In every serial run of reminder sweeps and prunes, at whatever
distances, no reminder is enqueued twice, and every committed sweep leaves exactly the
reminders of its day's notches. -/
theorem reminders_once (sha256 : Str → Str) (validateKennzeichen : Str → Option Str)
    {start world : World} {history : List Done}
    (serial : Serial (system sha256 validateKennzeichen) start world history)
    (only : ∀ done ∈ history,
      Ended.request done = .sendReminders ∨ Ended.request done = .pruneOldOutbox) :
    ((messagesOf history).map OutboxMessage.dedupKey).Nodup ∧
      ∀ done ∈ history, Ended.request done = .sendReminders → Done.isCommitted done = true →
        ∃ today, Done.Reminds start.db done today := by
  have recorded : RemindersHeld start world history := by
    refine Serial.recorded (system_laws sha256 validateKennzeichen) ?_ ?_ ?_ serial
    · exact fun _ => ⟨⟨rfl, rfl, by simp [messagesOf], by simp [messagesOf], by simp [messagesOf]⟩,
        by simp⟩
    · intro world env history possible known only
      obtain ⟨scheduled, reminds⟩ := known only
      have ticks : world.clock < env.now := of_decide_eq_true possible
      exact ⟨scheduled.time rfl (le_of_lt ticks), reminds⟩
    · intro before done history served known only
      obtain ⟨scheduled, reminds⟩ := known fun earlier member =>
        only earlier (List.mem_append_left _ member)
      refine ⟨scheduled.leave served (only done (by simp)), fun run member isRun committed => ?_⟩
      rcases List.mem_append.mp member with old | new
      · exact reminds run old isRun committed
      · have isDone := List.mem_singleton.mp new
        subst isDone
        obtain ⟨_, well⟩ := committed_well committed
        obtain ⟨now, createdAt, today, own⟩ := remindRun_of_served served isRun well
        obtain ⟨day, due, left, messages⟩ := own.reminds
        refine ⟨today, day, ?_, ?_, ?_⟩
        · rwa [scheduled.deadlines] at due
        · rwa [scheduled.deadlines, scheduled.accountUsers] at left
        · rwa [scheduled.deadlines] at messages
  exact ⟨(recorded only).1.once, (recorded only).2⟩

end Run

/-! ### A run on a fleet -/

def fleetDeadline : Deadline where
  id := fleetId 3
  companyId := fleetId 100
  kind := .fsk
  subject := .driver (fleetId 2)
  dueOn := ⟨1970, 1, 5, by decide⟩
  status := .open
  completedOn := none
  isNachpruefung := false

def remindedWorld : World where
  db := { fleetWorld.db with deadlines := Table.empty.insert fleetDeadline }
  clock := fleetWorld.clock

def fleetEnvs (first steps : Nat) : List Env :=
  (List.range steps).map fun step => fleetEnv (first + step)

/-- Two sweeps on one day, a prune after two years and a sweep behind it. -/
def remindedRun : List (Request × List Env) :=
  [(.sendReminders, fleetEnvs 1 26),
    (.sendReminders, fleetEnvs 18000000000 20),
    (.pruneOldOutbox, fleetEnvs 67392000000000 6),
    (.sendReminders, fleetEnvs 67478400000000 26)]

/-- The first sweep enqueues an e-mail and an SMS, the second nothing; the prune deletes the
two, and the last sweep enqueues others. -/
theorem reminders_once_fleet :
    ∃ world history, Serial (system id some) remindedWorld world history ∧
      history.map (fun done => (Done.messages done).length) = [2, 0, 0, 2] ∧
        world.db.outbox.rows.length = 2 ∧
          ((messagesOf history).map OutboxMessage.dedupKey).Nodup ∧
            ∀ done ∈ history, Ended.request done = .sendReminders →
              Done.isCommitted done = true → ∃ today, Done.Reminds remindedWorld.db done today := by
  have served : ((system id some).serveAll remindedWorld remindedRun).any (fun served =>
      (served.2.all fun done => Ended.request done matches .sendReminders | .pruneOldOutbox) &&
        decide (served.2.map (fun done => (Done.messages done).length) = [2, 0, 0, 2] ∧
          served.1.db.outbox.rows.length = 2)) = true := by
    decide +kernel
  obtain ⟨⟨world, history⟩, ran, holds⟩ := (Option.any_eq_true _ _).mp served
  obtain ⟨duties, counts⟩ := (Bool.and_eq_true _ _).mp holds
  obtain ⟨enqueued, stored⟩ := of_decide_eq_true counts
  have serial : Serial (system id some) remindedWorld world history :=
    Serial.nothing.serveAll ran
  refine ⟨world, history, serial, enqueued, stored, reminders_once id some serial ?_⟩
  intro done member
  have isDuty := List.all_eq_true.mp duties done member
  split at isDuty
  · exact .inl ‹_›
  · exact .inr ‹_›
  · cases isDuty

end Fristenwaechter
