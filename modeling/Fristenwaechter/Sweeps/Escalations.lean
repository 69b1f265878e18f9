import Fristenwaechter.Behaviour.Recording
import Fristenwaechter.Lockout.Outstanding
import Fristenwaechter.Sweeps.Reminders

/-!
Owns the escalation sweep over serial runs: the notifications of a case are nags on
different days while it is OPEN, then the broadcast of the commit that flips it, then
nothing.
-/

namespace Fristenwaechter

open Library (Ended Engine Journal Served Serial Table)
open Library.Program (forEach)

variable {session after : Session} {db : Db}
variable {now startedAt : Instant} {today : Date} {cases : List EscalationCase}

/-! ### One sweep -/

/-- A write of a sweep whose transaction has started at the instant. -/
structure SweepAdds (now : Instant) (today : Date) (cases : List EscalationCase)
    (startedAt : Instant) (write : Write) : Prop where
  sweeps : SweepWrite now today cases write
  dated : ∀ row, write.message = some row → row.createdAt = startedAt

theorem sweepCase_adds {case : EscalationCase} (claimed : case ∈ cases)
    (ended : postgres.Ends (sweepCase now today case) session (.ok ()) after) :
    session.Adds (SweepAdds now today cases session.connection.startedAt) after ∧
      (case.deadlineAt < now → .updateCase case.breach ∈ after.made) := by
  rcases ends_then.mp ended with ⟨driver, first, loads, rest⟩ | ⟨_, same, _⟩
  swap
  · cases same
  rcases ends_then.mp rest with ⟨recipients, second, resolves, writes⟩ | ⟨_, same, _⟩
  swap
  · cases same
  have firstAdds : session.Adds (fun _ => False) first := adding_getDriver _ _ _ _ loads
  have bothAdds : session.Adds (fun _ => False) second :=
    firstAdds.trans (resolveRecipients_adds resolves).1
  have reads := bothAdds.mono (fun write none =>
    (none.elim : SweepAdds now today cases session.connection.startedAt write))
  dsimp only at writes
  by_cases late : case.deadlineAt < now
  · rw [if_pos late] at writes
    rcases ends_then.mp writes with ⟨⟨⟩, third, updates, tells⟩ | ⟨_, same, _⟩
    swap
    · cases same
    have flips := made_add updates
    have updateAdds :
        Session.Adds (SweepAdds now today cases session.connection.startedAt) second third :=
      adding_add ⟨.breach case claimed late, fun _ none => by cases none⟩ _ _ _ updates
    have tellAdds := (enqueueForAll_adds tells).1
    have start : third.connection.startedAt = session.connection.startedAt :=
      (reads.trans updateAdds).startedAt
    rw [start] at tellAdds
    refine ⟨reads.trans (updateAdds.trans (tellAdds.mono ?_)), fun _ => tellAdds.kept _ flips⟩
    rintro write ⟨id, contact, member⟩
    refine ⟨.breachMessage case claimed late driver id _ contact, fun row isRow => ?_⟩
    cases isRow
    rfl
  · rw [if_neg late] at writes
    refine ⟨reads.trans ?_, fun past => absurd past late⟩
    split at writes
    · rcases ends_then.mp writes with ⟨⟨⟩, third, updates, tells⟩ | ⟨_, same, _⟩
      swap
      · cases same
      have updateAdds :
          Session.Adds (SweepAdds now today cases session.connection.startedAt) second third :=
        adding_add ⟨.nag case claimed late, fun _ none => by cases none⟩ _ _ _ updates
      have tellAdds := (enqueueForAll_adds tells).1
      have start : third.connection.startedAt = session.connection.startedAt :=
        (reads.trans updateAdds).startedAt
      rw [start] at tellAdds
      refine updateAdds.trans (tellAdds.mono ?_)
      rintro write ⟨id, contact, member⟩
      refine ⟨.nagMessage case claimed late driver id _ contact, fun row isRow => ?_⟩
      cases isRow
      rfl
    · obtain ⟨_, rfl⟩ := writes
      exact .refl _

theorem sweepCases_add {rest : List EscalationCase} (claimed : rest ⊆ cases)
    (ended : postgres.Ends (forEach rest (sweepCase now today)) session (.ok ()) after) :
    session.Adds (SweepAdds now today cases session.connection.startedAt) after ∧
      ∀ case ∈ rest, case.deadlineAt < now → .updateCase case.breach ∈ after.made := by
  induction rest generalizing session with
  | nil =>
      obtain ⟨_, rfl⟩ := ended
      exact ⟨.refl _, by simp⟩
  | cons case others inductionHypothesis =>
      rcases ends_then.mp ended with ⟨⟨⟩, middle, first, second⟩ | ⟨_, same, _⟩
      swap
      · cases same
      obtain ⟨ownAdds, ownFlips⟩ := sweepCase_adds (claimed List.mem_cons_self) first
      obtain ⟨restAdds, restFlips⟩ := inductionHypothesis
        (fun other member => claimed (List.mem_cons_of_mem _ member)) second
      rw [ownAdds.startedAt] at restAdds
      refine ⟨ownAdds.trans restAdds, fun other member late => ?_⟩
      rcases List.mem_cons.mp member with rfl | member
      · exact restAdds.kept _ (ownFlips late)
      · exact restFlips other member late

theorem breached_after {writes : List Write} {case : EscalationCase}
    (allOpen : ∀ case ∈ cases, case.status = .open)
    (unique : ∀ other ∈ cases, other.id = case.id → other = case) (late : case.deadlineAt < now)
    (all : ∀ write ∈ writes, SweepWrite now today cases write)
    (stored : ∃ row ∈ db.cases, row.id = case.id ∧
      (row.status = .breached ∨ .updateCase case.breach ∈ writes)) :
    ∃ row ∈ (db.after writes).cases, row.id = case.id ∧ row.status = .breached := by
  induction writes generalizing db with
  | nil =>
      obtain ⟨row, member, own, flipped | none⟩ := stored
      · exact ⟨row, member, own, flipped⟩
      · cases none
  | cons write rest inductionHypothesis =>
      rw [Db.after_cons]
      refine inductionHypothesis (fun other member => all other (List.mem_cons_of_mem _ member)) ?_
      obtain ⟨row, member, own, flips⟩ := stored
      cases all write List.mem_cons_self with
      | breach other claimed _ =>
          refine ⟨_, (Table.mem_update (by simp)).mpr ⟨row, member, rfl⟩, ?_⟩
          by_cases hit : row.id = other.id
          · rw [if_pos (show Library.Keyed.key row = other.breach.loaded.id from hit)]
            refine ⟨own, .inl ?_⟩
            simp [EscalationCase.changed, column, EscalationCase.breach, allOpen other claimed]
          · rw [if_neg (show ¬ Library.Keyed.key row = other.breach.loaded.id from hit)]
            refine ⟨own, flips.imp_right fun inside => ?_⟩
            rcases List.mem_cons.mp inside with same | later
            · cases same
              exact absurd own hit
            · exact later
      | nag other claimed inTime =>
          have apart : row.id ≠ other.id := by
            intro hit
            have isCase := unique other claimed (hit.symm.trans own)
            rw [isCase] at inTime
            exact inTime late
          refine ⟨row, (Table.mem_update (by simp)).mpr ⟨row, member, ?_⟩, own, ?_⟩
          · rw [if_neg (show ¬ Library.Keyed.key row = (other.nagged today).loaded.id from apart)]
          · refine flips.imp_right fun inside => ?_
            rcases List.mem_cons.mp inside with same | later
            · injection same with same
              have loaded := congrArg CaseChange.loaded same
              have sameId := congrArg EscalationCase.id loaded
              exact absurd (own.trans sameId) apart
            · exact later
      | breachMessage =>
          exact ⟨row, member, own, flips.imp_right fun inside => by simpa using inside⟩
      | nagMessage =>
          exact ⟨row, member, own, flips.imp_right fun inside => by simpa using inside⟩

/-! ### One run -/

def OutboxMessage.Nags (row : OutboxMessage) (caseId : Uuid) (day : Date) : Prop :=
  ∃ contact : OutboxChannel × Str, row.channel = contact.1 ∧ row.recipient = contact.2 ∧
    row.template = "escalation_nag".toList ∧
      row.dedupKey = contactKey (nagEvent caseId day) contact

def OutboxMessage.Announces (row : OutboxMessage) (caseId : Uuid) : Prop :=
  ∃ contact : OutboxChannel × Str, row.channel = contact.1 ∧ row.recipient = contact.2 ∧
    row.template = "escalation_breached".toList ∧
      row.dedupKey = contactKey (breachedEvent caseId) contact

def OutboxMessage.Concerns (row : OutboxMessage) (caseId : Uuid) : Prop :=
  (∃ day, row.Nags caseId day) ∨ row.Announces caseId

/-- No case of this id is OPEN. -/
def Db.Closed (db : Db) (caseId : Uuid) : Prop :=
  ∀ case ∈ db.cases, case.id = caseId → case.status ≠ .open

/-- A sweep at an instant on a day nags cases that are OPEN and in time, and flips those
that are OPEN and late, with their broadcast. -/
structure Done.Escalates (done : Done) (now : Instant) (today : Date) : Prop where
  timed : ∃ entry ∈ done.transaction.trace, entry.statement = .now ∧ entry.env.now = now
  dated : ∃ entry ∈ done.transaction.trace, entry.statement = .now ∧
    berlinDate entry.env.now = some today
  told : ∀ row ∈ done.messages, ∃ case ∈ done.world.db.cases, case.status = .open ∧
    (now ≤ case.deadlineAt ∧ row.Nags case.id today ∨
      case.deadlineAt < now ∧ row.Announces case.id)
  flips : ∀ case ∈ done.world.db.cases, case.status = .open → case.deadlineAt < now →
    ∃ later ∈ done.result.cases, later.id = case.id ∧ later.status = .breached

/-- A committed sweep, alone from its start. -/
structure SweepRun (start : World) (done : Done) (now dayAt createdAt : Instant) (today : Date) :
    Prop where
  escalates : Done.Escalates done now today
  since : start.clock ≤ dayAt
  before : dayAt < createdAt
  isToday : berlinDate dayAt = some today
  writes : ∀ write ∈ Session.writes done.transaction,
    write.KeepsOutbox ∧ ∀ row, write ≠ .insertCase row
  created : ∀ row ∈ done.messages, row.createdAt = createdAt

section Run

variable {sha256 : Str → Str} {validateKennzeichen : Str → Option Str}

theorem SweepWrite.keeps {write : Write} (sweeps : SweepWrite now today cases write) :
    write.KeepsOutbox ∧ ∀ row, write ≠ .insertCase row := by
  cases sweeps <;> exact ⟨trivial, by simp⟩

theorem sweepRun_of_served {start : World} {done : Done}
    (served : Served (system sha256 validateKennzeichen) readCommitted start done)
    (isSweep : done.request = .sweepEscalations) {result : Outcome}
    (well : done.outcome = some (.ok result)) :
    ∃ now dayAt createdAt today, SweepRun start done now dayAt createdAt today := by
  obtain ⟨sameDb, seen⟩ := served_sees served
  have ended := served.ends _ well
  rw [isSweep] at ended
  have ends : postgres.Ends (transaction (Request.sweepEscalations.body sha256 validateKennzeichen))
      (Session.opened none start.clock) (.ok result) done.transaction := ended
  rcases transaction_ends ends with ⟨_, middle, _, body, executed⟩ | ⟨_, same, _⟩
  swap
  · cases same
  rcases ends_return.mp body with ⟨⟨⟩, _, ran⟩ | ⟨_, same, _⟩
  swap
  · cases same
  obtain ⟨now, clock, begun, claim, today, base, sweeps, loop⟩ := sweepEscalations_ends rfl ran
  obtain ⟨adds, flips⟩ := sweepCases_add (fun _ member => member) loop
  have isBase := sweeps.isBase
  have made := made_committed executed
  have inTrace : ∀ entry ∈ middle.trace, entry ∈ done.transaction.trace :=
    executed.grown.trace.subset
  have whole : [now, clock, begun, claim] <+: done.transaction.trace := by
    refine List.IsPrefix.trans ?_ (adds.trace.trans executed.grown.trace)
    rw [isBase]
    exact List.prefix_rfl
  have early : ∀ entry ∈ [now, clock, begun, claim], entry ∈ done.transaction.trace :=
    fun entry member => whole.subset member
  have startedAt : base.connection.startedAt = begun.env.now := by
    rw [isBase]
    rfl
  have nothing : ∀ write, write ∉ base.made := by
    have none : base.made = [] := by
      rw [isBase, Session.made, Session.locked_writes]
      rfl
    simp [none]
  have isClaim : claim.claimableCases =
      start.db.cases.rows.filter fun row => row.status = .open := by
    have none : claim.others = [] := (served.seen claim (early claim (by simp))).1
    have tenant : ∀ company, claim.connection.sees company = true := by
      intro company
      rw [sweeps.asked.connection]
      rfl
    rw [Sent.claimableCases, sweeps.asked.db, (seen claim (early claim (by simp))).1, none]
    simp only [tenant, Bool.true_and, heldByOthers, List.any_nil, Bool.not_false, Bool.and_true]
    rfl
  have claimed : ∀ case, case ∈ claim.claimableCases ↔
      case ∈ start.db.cases ∧ case.status = .open := by
    intro case
    rw [isClaim, List.mem_filter, decide_eq_true_eq]
    exact Iff.rfl
  have all : ∀ write ∈ Session.writes done.transaction,
      SweepAdds now.env.now today claim.claimableCases begun.env.now write := by
    intro write member
    rcases adds.added write ((made write).mp member) with old | new
    · exact absurd old (nothing write)
    · rwa [startedAt] at new
  have clockIn := early clock (by simp)
  refine ⟨now.env.now, clock.env.now, begun.env.now, today, ⟨?_, ?_, ?_, ?_⟩,
    (seen clock clockIn).2.1, ?_, sweeps.isToday,
    fun write member => (all write member).sweeps.keeps, ?_⟩
  · exact ⟨now, early now (by simp), sweeps.timed.statement, rfl⟩
  · exact ⟨clock, clockIn, sweeps.dated.statement, sweeps.isToday⟩
  · intro row member
    unfold Done.messages at member
    split at member
    swap
    · cases member
    rw [sameDb]
    cases (all _ (mem_message.mp member)).sweeps with
    | breachMessage case isClaimed late driver id createdAt contact =>
        obtain ⟨inDb, isOpen⟩ := (claimed case).mp isClaimed
        exact ⟨case, inDb, isOpen, .inr ⟨late, contact, rfl, rfl, rfl, rfl⟩⟩
    | nagMessage case isClaimed inTime driver id createdAt contact =>
        obtain ⟨inDb, isOpen⟩ := (claimed case).mp isClaimed
        exact ⟨case, inDb, isOpen, .inl ⟨not_lt.mp inTime, contact, rfl, rfl, rfl, rfl⟩⟩
  · intro case inDb isOpen late
    rw [sameDb] at inDb
    have isClaimed := (claimed case).mpr ⟨inDb, isOpen⟩
    refine breached_after (claimableCases_open claim) ?_ late
      (fun write member => (all write member).sweeps) ⟨case, sameDb ▸ inDb, rfl, .inr ?_⟩
    · intro other otherClaimed same
      exact Table.eq_of_key ((claimed other).mp otherClaimed).1 inDb same
    · exact (made _).mpr (flips case isClaimed late)
  · have order : [clock, begun].Sublist done.transaction.trace := by
      refine List.Sublist.trans ?_ whole.sublist
      exact List.Sublist.cons _ (by simp)
    have drifts : (system sha256 validateKennzeichen).Drifts
        ((system sha256 validateKennzeichen).advance clock.world clock.env) begun.world := by
      simpa using served.ordered.sublist order
    exact lt_of_le_of_lt (drifts_iff drifts).2 sweeps.opened.ticks
  · intro row member
    unfold Done.messages at member
    split at member
    · exact (all _ (mem_message.mp member)).dated row rfl
    · cases member

/-! ### Whole runs -/

/-- A row tells about one case only. -/
theorem OutboxMessage.Concerns.unique {row : OutboxMessage} {one two : Uuid}
    (first : row.Concerns one) (second : row.Concerns two) : one = two := by
  rcases first with ⟨day, _, _, _, _, key⟩ | ⟨_, _, _, _, key⟩
  · rcases second with ⟨other, _, _, _, _, otherKey⟩ | ⟨_, _, _, _, otherKey⟩
    · exact (nagKey_inj (key.symm.trans otherKey)).1
    · exact absurd (key.symm.trans otherKey) nagKey_ne_breachKey
  · rcases second with ⟨other, _, _, _, _, otherKey⟩ | ⟨_, _, _, _, otherKey⟩
    · exact absurd (otherKey.symm.trans key) nagKey_ne_breachKey
    · exact breachKey_inj (key.symm.trans otherKey)

theorem Db.Closed.kept {writes : List Write} {caseId : Uuid} (closed : db.Closed caseId)
    (none : ∀ write ∈ writes, ∀ row, write ≠ .insertCase row) :
    (db.after writes).Closed caseId := by
  intro case member own isOpen
  obtain ⟨old, oldIn, same, _, oldOpen⟩ := open_after none member isOpen
  exact closed old oldIn (same.trans own) oldOpen

/-- A nag on the day before its row was created, or a broadcast about a closed case. -/
def OutboxMessage.Dated (row : OutboxMessage) (db : Db) : Prop :=
  (∃ instant day caseId, instant < row.createdAt ∧ berlinDate instant = some day ∧
      row.Nags caseId day) ∨
    ∃ caseId, row.Announces caseId ∧ db.Closed caseId

theorem OutboxMessage.Dated.later {row : OutboxMessage} {before after : Db}
    (dated : row.Dated before) (closed : ∀ caseId, before.Closed caseId → after.Closed caseId) :
    row.Dated after :=
  dated.imp_right fun ⟨caseId, announces, isClosed⟩ => ⟨caseId, announces, closed caseId isClosed⟩

/-- After the earlier transaction nothing tells about the cases it has left closed. -/
def Done.Silences (done later : Done) : Prop :=
  done.isCommitted = true → ∀ caseId, done.result.Closed caseId →
    ∀ row ∈ later.messages, ¬ row.Concerns caseId

/-- What a history of sweeps, PASSED checks and prunes says. -/
structure Escalating (start world : World) (history : List Done) : Prop where
  closed : ∀ caseId, start.db.Closed caseId →
    world.db.Closed caseId ∧ ∀ row ∈ messagesOf history, ¬ row.Concerns caseId
  left : ∀ done ∈ history, Done.isCommitted done = true →
    ∀ caseId, (Done.result done).Closed caseId → world.db.Closed caseId
  silent : history.Pairwise Done.Silences
  retained : ∀ row ∈ messagesOf history, Retained world row
  dated : ∀ row ∈ messagesOf history, row.Dated world.db
  once : ((messagesOf history).map OutboxMessage.dedupKey).Nodup

theorem Escalating.step {start before after : World} {history : List Done} {done : Done}
    (escalating : Escalating start before history)
    (closed : ∀ caseId, before.db.Closed caseId → after.db.Closed caseId)
    (result : done.isCommitted = true → after.db = done.result)
    (told : ∀ row ∈ done.messages, ∃ case ∈ before.db.cases, case.status = .open ∧
      row.Concerns case.id)
    (retained : ∀ row, Retained before row → Retained after row)
    (stored : ∀ row ∈ done.messages, Retained after row ∧ row.Dated after.db)
    (once : ((messagesOf (history ++ [done])).map OutboxMessage.dedupKey).Nodup) :
    Escalating start after (history ++ [done]) := by
  have untold : ∀ caseId, before.db.Closed caseId →
      ∀ row ∈ done.messages, ¬ row.Concerns caseId := by
    intro caseId isClosed row member concerns
    obtain ⟨case, inDb, isOpen, own⟩ := told row member
    exact isClosed case inDb (own.unique concerns) isOpen
  constructor
  · intro caseId isClosed
    obtain ⟨still, quiet⟩ := escalating.closed caseId isClosed
    refine ⟨closed caseId still, fun row member => ?_⟩
    rw [messagesOf_append] at member
    rcases List.mem_append.mp member with old | new
    · exact quiet row old
    · exact untold caseId still row new
  · intro other member committed caseId isClosed
    rcases List.mem_append.mp member with old | new
    · exact closed caseId (escalating.left other old committed caseId isClosed)
    · rw [List.mem_singleton.mp new] at committed isClosed
      rw [result committed]
      exact isClosed
  · refine List.pairwise_append.mpr ⟨escalating.silent, List.pairwise_singleton _ _, ?_⟩
    intro earlier old latest new committed caseId isClosed
    rw [List.mem_singleton.mp new]
    exact untold caseId (escalating.left earlier old committed caseId isClosed)
  · intro row member
    rw [messagesOf_append] at member
    rcases List.mem_append.mp member with old | new
    · exact retained row (escalating.retained row old)
    · exact (stored row new).1
  · intro row member
    rw [messagesOf_append] at member
    rcases List.mem_append.mp member with old | new
    · exact (escalating.dated row old).later closed
    · exact (stored row new).2
  · exact once

theorem Escalating.quiet {start before after : World} {history : List Done} {done : Done}
    (escalating : Escalating start before history) (none : done.messages = [])
    (closed : ∀ caseId, before.db.Closed caseId → after.db.Closed caseId)
    (result : done.isCommitted = true → after.db = done.result)
    (retained : ∀ row, Retained before row → Retained after row) :
    Escalating start after (history ++ [done]) := by
  refine escalating.step closed result ?_ retained ?_ ?_
  · simp [none]
  · simp [none]
  · rw [messagesOf_append, none, List.append_nil]
    exact escalating.once

theorem Escalating.sweep {start before : World} {done : Done} {history : List Done}
    {now dayAt createdAt : Instant} {today : Date} (escalating : Escalating start before history)
    (run : SweepRun before done now dayAt createdAt today) (committed : done.isCommitted = true)
    (sameDb : done.world.db = before.db) (clock : before.clock ≤ done.world.clock)
    (ready : Journal.Replays (Session.writes done.transaction) done.world.db) :
    Escalating start { done.world with db := done.result } (history ++ [done]) := by
  obtain ⟨kept, added, distinct⟩ :=
    outbox_grows ready fun write member => (run.writes write member).1
  have messages : done.messages = (Session.writes done.transaction).filterMap Write.message := by
    simp [Done.messages, committed]
  have closed : ∀ caseId, before.db.Closed caseId → (done.result).Closed caseId := by
    intro caseId isClosed
    rw [Done.result, sameDb]
    exact Db.Closed.kept isClosed fun write member => (run.writes write member).2
  have told := run.escalates.told
  rw [sameDb] at told
  have fresh : ∀ row ∈ done.messages, row.Dated done.result := by
    intro row member
    obtain ⟨case, inDb, isOpen, ⟨_, nags⟩ | ⟨late, announces⟩⟩ := told row member
    · exact .inl ⟨dayAt, today, case.id, run.created row member ▸ run.before, run.isToday, nags⟩
    · refine .inr ⟨case.id, announces, ?_⟩
      obtain ⟨later, laterIn, same, isBreached⟩ :=
        run.escalates.flips case (sameDb ▸ inDb) isOpen late
      intro other otherIn own isOpen
      have isLater : other = later := Table.eq_of_key otherIn laterIn (own.trans same.symm)
      rw [isLater, isBreached] at isOpen
      cases isOpen
  refine escalating.step closed (fun _ => rfl) ?_ ?_ ?_ ?_
  · intro row member
    obtain ⟨case, inDb, isOpen, ⟨_, nags⟩ | ⟨_, announces⟩⟩ := told row member
    · exact ⟨case, inDb, isOpen, .inl ⟨today, nags⟩⟩
    · exact ⟨case, inDb, isOpen, .inr announces⟩
  · exact fun row retained => retained.later (fun row inDb => kept row (sameDb ▸ inDb)) clock
  · exact fun row member => ⟨.inl (added row (messages ▸ member)).1, fresh row member⟩
  · rw [messagesOf_append, List.map_append]
    refine List.nodup_append.mpr ⟨escalating.once, by rw [messages]; exact distinct, ?_⟩
    intro key inOld other inNew same
    obtain ⟨first, firstIn, rfl⟩ := List.mem_map.mp inOld
    obtain ⟨second, secondIn, rfl⟩ := List.mem_map.mp inNew
    rcases escalating.retained first firstIn with
      still | ⟨pruned, day, cutoff, upTo, isDay, isCutoff, old⟩
    · exact (added second (messages ▸ secondIn)).2 first (sameDb ▸ still) same
    obtain ⟨case, inDb, isOpen, tells⟩ := told second secondIn
    rcases escalating.dated first firstIn with
      ⟨earlier, one, caseId, isEarlier, isOne, _, _, _, _, key⟩ |
      ⟨caseId, ⟨_, _, _, _, key⟩, isClosed⟩
    · rcases tells with ⟨_, _, _, _, _, otherKey⟩ | ⟨_, _, _, _, _, otherKey⟩
      · have sameDay := (nagKey_inj (key.symm.trans (same.trans otherKey))).2
        have apart :=
          retention isOne isEarlier isDay isCutoff old (upTo.trans run.since) run.isToday
        rw [sameDay] at apart
        omega
      · exact nagKey_ne_breachKey (key.symm.trans (same.trans otherKey))
    · rcases tells with ⟨_, _, _, _, _, otherKey⟩ | ⟨_, _, _, _, _, otherKey⟩
      · exact nagKey_ne_breachKey (otherKey.symm.trans (same.symm.trans key))
      · have sameCase := breachKey_inj (otherKey.symm.trans (same.symm.trans key))
        exact isClosed case inDb sameCase isOpen

def Request.FollowsCase (request : Request) : Prop :=
  request = .sweepEscalations ∨ request.Passes ∨ request = .pruneOldOutbox

/-- A committed PASSED check or prune enqueues nothing, opens no case and leaves the
rows to the prune. -/
theorem calm_of_served {before : World} {done : Done}
    (served : Served (system sha256 validateKennzeichen) readCommitted before done)
    (calm : (Ended.request done).Passes ∨ Ended.request done = .pruneOldOutbox) {result : Outcome}
    (well : done.outcome = some (.ok result)) :
    done.messages = [] ∧
      (∀ write ∈ Session.writes done.transaction, ∀ row, write ≠ .insertCase row) ∧
        ∀ row, Retained before row → Retained { done.world with db := done.result } row := by
  rcases calm with passes | isPrune
  · obtain ⟨sameDb, clock⟩ := drifts_iff served.drifts
    have only : OnlyEver Write.Checks done.transaction :=
      passes_checks passes _ _ _ (served.ends _ well) (.opening _ _)
    have keeps : ∀ write ∈ Session.writes done.transaction,
        write.KeepsOutbox ∧ (∀ row, write ≠ .insertCase row) ∧ write.message = none := by
      intro write member
      have checks := only.writes write member
      cases write <;> first | exact checks.elim | exact ⟨trivial, by simp, rfl⟩
    have kept := (outbox_grows served.ready fun write member => (keeps write member).1).1
    refine ⟨?_, fun write member => (keeps write member).2.1, fun row retained =>
      retained.later (fun row inDb => kept row (sameDb ▸ inDb)) clock⟩
    unfold Done.messages
    split
    · exact List.filterMap_eq_nil_iff.mpr fun write member => (keeps write member).2.2
    · rfl
  · obtain ⟨now, today, cutoff, prunes⟩ := prunes_of_served served isPrune well
    refine ⟨prunes.messages, ?_, fun row retained => prunes.retained retained⟩
    intro write member row isInsert
    have table := prunes.tables write member
    rw [isInsert] at table
    cases table

theorem Escalating.leave {start before : World} {done : Done} {history : List Done}
    (served : Served (system sha256 validateKennzeichen) readCommitted before done)
    (follows : (Ended.request done).FollowsCase) (escalating : Escalating start before history) :
    Escalating start ((system sha256 validateKennzeichen).leave done) (history ++ [done]) := by
  obtain ⟨sameDb, clock⟩ := drifts_iff served.drifts
  by_cases committed : done.isCommitted = true
  · obtain ⟨result, well⟩ := committed_well committed
    rw [leave_committed well]
    rcases follows with isSweep | calm
    · obtain ⟨now, dayAt, createdAt, today, run⟩ := sweepRun_of_served served isSweep well
      exact escalating.sweep run committed sameDb clock served.ready
    · obtain ⟨none, inserts, retained⟩ := calm_of_served served calm well
      refine escalating.quiet none (fun caseId isClosed => ?_) (fun _ => rfl) retained
      change (done.world.db.after _).Closed caseId
      rw [sameDb]
      exact Db.Closed.kept isClosed inserts
  · have uncommitted : done.isCommitted = false := by simpa using committed
    rw [leave_uncommitted uncommitted]
    refine escalating.quiet (messages_uncommitted uncommitted) ?_
      (fun isOk => absurd isOk committed)
      fun row retained => retained.later (fun row inDb => sameDb ▸ inDb) clock
    rw [sameDb]
    exact fun caseId isClosed => isClosed

theorem Escalating.time {start before after : World} {history : List Done}
    (escalating : Escalating start before history) (sameDb : after.db = before.db)
    (clock : before.clock ≤ after.clock) : Escalating start after history where
  closed := by
    rw [sameDb]
    exact escalating.closed
  left := by
    rw [sameDb]
    exact escalating.left
  silent := escalating.silent
  retained row member :=
    (escalating.retained row member).later (fun _ inDb => sameDb ▸ inDb) clock
  dated := by
    rw [sameDb]
    exact escalating.dated
  once := escalating.once

/-- What one transaction of such a run does. -/
structure Done.Follows (done : Done) : Prop where
  sweeps : Ended.request done = .sweepEscalations → done.isCommitted = true →
    ∃ now today, done.Escalates now today
  others : Ended.request done ≠ .sweepEscalations → done.messages = []

theorem follows_of_served {before : World} {done : Done}
    (served : Served (system sha256 validateKennzeichen) readCommitted before done)
    (follows : (Ended.request done).FollowsCase) : done.Follows := by
  constructor
  · intro isSweep committed
    obtain ⟨result, well⟩ := committed_well committed
    obtain ⟨now, dayAt, createdAt, today, run⟩ := sweepRun_of_served served isSweep well
    exact ⟨now, today, run.escalates⟩
  · intro other
    by_cases committed : done.isCommitted = true
    · obtain ⟨result, well⟩ := committed_well committed
      exact (calm_of_served served (follows.resolve_left other) well).1
    · exact messages_uncommitted (by simpa using committed)

def EscalationsHeld (start world : World) (history : List Done) : Prop :=
  (∀ done ∈ history, (Ended.request done).FollowsCase) →
    Escalating start world history ∧ ∀ done ∈ history, Done.Follows done

/-- **Notifications follow the case.** In every serial run of sweeps, PASSED checks and
prunes, at whatever distances: no notification is enqueued twice; a committed sweep
nags OPEN cases that are in time and flips those that are late, with their broadcast;
nothing else tells about a case, and nothing at all once the case has been closed. -/
theorem notifications_follow_case (sha256 : Str → Str) (validateKennzeichen : Str → Option Str)
    {start world : World} {history : List Done}
    (serial : Serial (system sha256 validateKennzeichen) start world history)
    (only : ∀ done ∈ history, (Ended.request done).FollowsCase) :
    ((messagesOf history).map OutboxMessage.dedupKey).Nodup ∧
      (∀ done ∈ history, Done.Follows done) ∧
      history.Pairwise Done.Silences ∧
      ∀ caseId, start.db.Closed caseId → ∀ row ∈ messagesOf history, ¬ row.Concerns caseId := by
  have recorded : EscalationsHeld start world history := by
    refine Serial.recorded (system_laws sha256 validateKennzeichen) ?_ ?_ ?_ serial
    · exact fun _ => ⟨⟨fun _ isClosed => ⟨isClosed, by simp [messagesOf]⟩, by simp, .nil,
        by simp [messagesOf], by simp [messagesOf], by simp [messagesOf]⟩, by simp⟩
    · intro world env history possible known only
      obtain ⟨escalating, follow⟩ := known only
      have ticks : world.clock < env.now := of_decide_eq_true possible
      exact ⟨escalating.time rfl (le_of_lt ticks), follow⟩
    · intro before done history served known only
      obtain ⟨escalating, follow⟩ := known fun earlier member =>
        only earlier (List.mem_append_left _ member)
      refine ⟨escalating.leave served (only done (by simp)), fun run member => ?_⟩
      rcases List.mem_append.mp member with old | new
      · exact follow run old
      · rw [List.mem_singleton.mp new]
        exact follows_of_served served (only done (by simp))
  obtain ⟨escalating, follow⟩ := recorded only
  exact ⟨escalating.once, follow, escalating.silent, fun caseId isClosed =>
    (escalating.closed caseId isClosed).2⟩

end Run

/-! ### Two sweeps of a fleet -/

def fleetCase : EscalationCase where
  id := fleetId 4
  createdAt := 1767225500
  companyId := fleetId 100
  driverId := fleetId 2
  status := .open
  deadlineAt := 1767225620
  resolvedAt := none
  resolvedById := none
  lastNagOn := none

def escalatedWorld : World where
  db := { fleetWorld.db with cases := Table.empty.insert fleetCase }
  clock := fleetWorld.clock

/-- A sweep in time and a late one enqueue two messages each. -/
theorem notifications_follow_case_fleet :
    ∃ world history, Serial (system id some) escalatedWorld world history ∧
      (messagesOf history).length = 4 ∧
        ((messagesOf history).map OutboxMessage.dedupKey).Nodup ∧
          (∀ done ∈ history, Done.Follows done) ∧ history.Pairwise Done.Silences ∧
            ∀ caseId, escalatedWorld.db.Closed caseId →
              ∀ row ∈ messagesOf history, ¬ row.Concerns caseId := by
  have served : ((system id some).serveAll escalatedWorld
      [(.sweepEscalations, fleetEnvs 1 29), (.sweepEscalations, fleetEnvs 40 29)]).any
      (fun served => (served.2.all fun done => Ended.request done matches .sweepEscalations) &&
        (messagesOf served.2).length = 4) = true := by
    decide +kernel
  obtain ⟨⟨world, history⟩, ran, holds⟩ := (Option.any_eq_true _ _).mp served
  obtain ⟨sweeps, four⟩ := (Bool.and_eq_true _ _).mp holds
  have serial : Serial (system id some) escalatedWorld world history :=
    Serial.nothing.serveAll ran
  refine ⟨world, history, serial, of_decide_eq_true four,
    notifications_follow_case id some serial ?_⟩
  intro done member
  have isSweep := List.all_eq_true.mp sweeps done member
  split at isSweep
  · exact .inl ‹_›
  · cases isSweep

end Fristenwaechter
