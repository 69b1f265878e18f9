import Fristenwaechter.Relay.Outbox
import Fristenwaechter.Sweeps.Outbox

/-!
Owns which outbox rows disappear: the purge takes out those older than its retention and
those of the companies it tombstones, and no other transaction takes out any.
-/

namespace Fristenwaechter

open Library (Chain Journal Server Table)
open Library.Program (forEach)

variable {session after : Session} {Result Final : Type}

/-- The session takes only such rows out of the outbox, and writes no others. -/
structure TakesOut (allowed : OutboxMessage → Prop) (session : Session) : Prop where
  pending : ∀ write ∈ session.memory.pending, write.table ≠ .outbox
  journal : ∀ world write, (world, .write write) ∈ session.connection.journal →
    write.table = .outbox → ∃ ids, write = .deleteOutbox ids ∧
      ∀ id ∈ ids, ∃ row ∈ world.db.outbox, row.id = id ∧ allowed row

section Rules

variable {allowed : OutboxMessage → Prop}

theorem TakesOut.opened (tenant : Option Uuid) (now : Instant) :
    TakesOut allowed (.opened tenant now) :=
  ⟨by simp [Session.opened, Memory.empty], by simp [Session.opened]⟩

theorem TakesOut.withPending {pending : List Write}
    (others : ∀ write ∈ pending, write.table ≠ .outbox) (takes : TakesOut allowed session) :
    TakesOut allowed (session.withPending pending) :=
  ⟨others, takes.journal⟩

theorem TakesOut.committed (takes : TakesOut allowed session) (db : Db) {row : OutboxMessage}
    (member : row ∈ (db.after session.writes).outbox) : row ∈ db.outbox := by
  have deletions : ∀ write ∈ session.writes, write.table = .outbox →
      ∃ ids, write = .deleteOutbox ids := by
    intro write executed isOutbox
    obtain ⟨⟨world, action⟩, inJournal, isWrite⟩ := List.mem_filterMap.mp executed
    cases action with
    | lock ref => cases isWrite
    | write other =>
        cases isWrite
        obtain ⟨ids, isDeletion, _⟩ := takes.journal world write inJournal isOutbox
        exact ⟨ids, isDeletion⟩
  generalize session.writes = writes at member deletions
  induction writes generalizing db with
  | nil => exact member
  | cons write rest inductionHypothesis =>
      have later := inductionHypothesis (write.apply db) member fun other inside =>
        deletions other (List.mem_cons_of_mem _ inside)
      by_cases isOutbox : write.table = .outbox
      · obtain ⟨ids, rfl⟩ := deletions write List.mem_cons_self isOutbox
        exact (Table.mem_remove.mp later).1
      · rwa [apply_outbox db isOutbox] at later

theorem TakesOut.wrote {write : Write} {entry : Sent} (other : write.table ≠ .outbox)
    (takes : TakesOut allowed session) : TakesOut allowed (session.wrote entry write) := by
  refine ⟨by simpa using takes.pending, fun world executed inJournal isOutbox => ?_⟩
  rcases List.mem_append.mp inJournal with old | new
  · exact takes.journal world executed old isOutbox
  · cases List.mem_singleton.mp new
    exact absurd isOutbox other

theorem TakesOut.executed {writes : List Write} (others : ∀ write ∈ writes, write.table ≠ .outbox)
    (executed : Executed writes session after) (takes : TakesOut allowed session) :
    TakesOut allowed after := by
  induction writes generalizing session with
  | nil =>
      cases executed
      exact takes
  | cons write rest inductionHypothesis =>
      obtain ⟨entry, _, _, remaining⟩ := executed
      exact inductionHypothesis (fun other member => others other (List.mem_cons_of_mem _ member))
        remaining (takes.wrote (others write List.mem_cons_self))

theorem TakesOut.sends {statement : Statement} {answer : Except Error (Answer statement)}
    (others : ∀ write, statement.MayWrite write → write.table ≠ .outbox)
    (sent : postgres.Sends statement session answer after) (takes : TakesOut allowed session) :
    TakesOut allowed after := by
  obtain ⟨entry, memory, connection, _, performed, rfl⟩ := sends_iff.mp sent
  have stepped := perform_stepped performed
  constructor
  · intro write member
    rcases stepped.pending with same | ⟨_, none⟩
    · exact takes.pending write (same ▸ member)
    · change write ∈ memory.pending at member
      rw [none] at member
      cases member
  · intro world write inJournal isOutbox
    change (world, .write write) ∈ connection.journal at inJournal
    rcases stepped.grows with same | ⟨refs, _, grown⟩ | ⟨executed, may, _, _, grown⟩ |
      ⟨_, length, cut⟩
    · exact takes.journal world write (same ▸ inJournal) isOutbox
    · rw [grown] at inJournal
      rcases List.mem_append.mp inJournal with old | new
      · exact takes.journal world write old isOutbox
      · obtain ⟨ref, _, isLock⟩ := List.mem_map.mp new
        cases isLock
    · rw [grown] at inJournal
      rcases List.mem_append.mp inJournal with old | new
      · exact takes.journal world write old isOutbox
      · cases List.mem_singleton.mp new
        exact absurd isOutbox (others write may)
    · rw [cut] at inJournal
      exact takes.journal world write (List.mem_of_mem_take inJournal) isOutbox

theorem TakesOut.deletes {statement : Statement} {answer : Except Error (Answer statement)}
    {given : Answer statement} {entry : Sent} {rows : List OutboxMessage} {memory : Memory}
    {connection : Connection}
    (replied : executeAndReply entry.world entry.others
      (.deleteOutbox (rows.map OutboxMessage.id)) given session.memory session.connection =
        some (answer, memory, connection))
    (stored : ∀ row ∈ rows, row ∈ (entry.world.db.after session.writes).outbox ∧ allowed row)
    (takes : TakesOut allowed session) :
    TakesOut allowed ⟨memory, connection, session.trace ++ [entry]⟩ := by
  obtain ⟨_, ⟨_, _, _, rfl, rfl⟩ | ⟨_, _, rfl, rfl⟩⟩ := executeAndReply_inv replied
  · exact ⟨takes.pending, takes.journal⟩
  · refine ⟨by simpa using takes.pending, fun world write inJournal isOutbox => ?_⟩
    rcases List.mem_append.mp inJournal with old | new
    · exact takes.journal world write old isOutbox
    · cases List.mem_singleton.mp new
      refine ⟨_, rfl, fun id inside => ?_⟩
      obtain ⟨row, isChosen, isId⟩ := List.mem_map.mp inside
      obtain ⟨seen, may⟩ := stored row isChosen
      exact ⟨row, takes.committed _ seen, isId, may⟩

theorem takesOut_flush : postgres.Preserves (TakesOut allowed) flush := by
  intro session outcome after ended takes
  have others : ∀ write ∈ unitOfWork session.memory.pending, write.table ≠ .outbox :=
    fun write member => takes.pending write (mem_unitOfWork.mp member)
  have cleared : TakesOut allowed (Session.withPending session []) := takes.withPending (by simp)
  rcases flush_ends ended with ⟨_, executed⟩ | ⟨error, _, refused⟩
  · exact cleared.executed others executed
  · obtain ⟨done, write, rest, middle, entry, whole, executed, _, _, rfl⟩ := refused
    have kept := cleared.executed (fun other member => others other
      (whole ▸ List.mem_append_left _ member)) executed
    exact ⟨kept.pending, kept.journal⟩

theorem takesOut_then {first : Work Result} {next : Result → Work Final}
    (one : postgres.Preserves (TakesOut allowed) first)
    (two : ∀ value, postgres.Preserves (TakesOut allowed) (next value)) :
    postgres.Preserves (TakesOut allowed) (first >>= next) :=
  Server.preserves_bind one two

theorem takesOut_emit {statement : Statement}
    (others : ∀ write, statement.MayWrite write → write.table ≠ .outbox) :
    postgres.Preserves (TakesOut allowed) (emit statement) :=
  Server.preserves_send fun _ _ _ sent takes => takes.sends others sent

theorem takesOut_select {statement : Statement}
    (others : ∀ write, statement.MayWrite write → write.table ≠ .outbox) :
    postgres.Preserves (TakesOut allowed) (select statement) :=
  takesOut_then takesOut_flush fun _ => takesOut_emit others

theorem takesOut_addAll {writes : List Write} (others : ∀ write ∈ writes, write.table ≠ .outbox) :
    postgres.Preserves (TakesOut allowed) (addAll writes) := by
  refine Server.preserves_change fun session takes => takes.withPending fun write member => ?_
  rcases List.mem_append.mp member with old | new
  · exact takes.pending write old
  · exact others write new

theorem takesOut_before {cutoff : Instant} (may : ∀ row, row.createdAt < cutoff → allowed row) :
    postgres.Preserves (TakesOut allowed) (select (.deleteOutboxBefore cutoff)) := by
  refine takesOut_then takesOut_flush fun _ => Server.preserves_send ?_
  intro session answer after sent takes
  obtain ⟨entry, memory, connection, _, performed, rfl⟩ := sends_iff.mp sent
  delta perform at performed
  dsimp only at performed
  refine takes.deletes performed fun row member => ?_
  obtain ⟨stored, holds⟩ := List.mem_filter.mp member
  simp only [Bool.and_eq_true, decide_eq_true_eq] at holds
  exact ⟨stored, may row holds.2⟩

theorem takesOut_of {companyId : Uuid} (may : ∀ row, row.companyId = companyId → allowed row) :
    postgres.Preserves (TakesOut allowed) (select (.deleteOutboxOf companyId)) := by
  refine takesOut_then takesOut_flush fun _ => Server.preserves_send ?_
  intro session answer after sent takes
  obtain ⟨entry, memory, connection, _, performed, rfl⟩ := sends_iff.mp sent
  delta perform at performed
  dsimp only at performed
  refine takes.deletes performed fun row member => ?_
  obtain ⟨stored, holds⟩ := List.mem_filter.mp member
  simp only [Bool.and_eq_true, decide_eq_true_eq] at holds
  exact ⟨stored, may row holds.2⟩

/-- A tombstone takes out the rows of its company. -/
theorem takesOut_tombstoneCompany {company : Company}
    (may : ∀ row, row.companyId = company.id → allowed row) :
    postgres.Preserves (TakesOut allowed) (tombstoneCompany company) := by
  refine takesOut_then (takesOut_emit fun _ may => may.elim) fun now => ?_
  refine takesOut_then (takesOut_addAll fun write member => ?_) fun _ => ?_
  · rw [Company.mem_update member]
    simp [Write.table]
  refine takesOut_then (takesOut_select fun _ may => may.elim) fun users => ?_
  refine takesOut_then (Server.preserves_forEach fun user _ =>
    takesOut_addAll fun write member => ?_) fun _ => ?_
  · rw [AccountUser.mem_update member]
    simp [Write.table]
  refine takesOut_then (takesOut_select fun _ may => may.elim) fun drivers => ?_
  refine takesOut_then (Server.preserves_forEach fun driver _ =>
    takesOut_addAll fun write member => ?_) fun _ => ?_
  · rw [Driver.mem_update member]
    simp [Write.table]
  refine takesOut_then (takesOut_select ?_) fun _ => takesOut_then (takesOut_of may) fun _ =>
    takesOut_select ?_
  · rintro _ ⟨ids, rfl⟩
    simp [Write.table]
  · rintro _ ⟨ids, rfl⟩
    simp [Write.table]

end Rules

/-! ### The purge -/

def Sent.companiesToDelete (entry : Sent) (threshold : Instant) : List Company :=
  entry.db.companies.rows.filter fun row =>
    entry.connection.sees row.id && row.deletionRequestedAt.any (· < threshold) &&
      row.deletedAt.isNone

theorem sends_companiesToDelete {threshold : Instant} {answer : Except Error (List Company)}
    (sent : postgres.Sends (.companiesToDelete threshold) session answer after) :
    ∃ entry, session.Asked (.companiesToDelete threshold) entry ∧
      answer = .ok (entry.companiesToDelete threshold) ∧ after = session.saw entry := by
  obtain ⟨entry, asked, same, isAfter⟩ := sends_reply (fun _ _ _ => rfl) sent
  refine ⟨entry, asked, ?_, isAfter⟩
  rw [same, Sent.companiesToDelete, Sent.db, asked.connection]
  rfl

/-- The message is older than the retention, or its company is tombstoned. -/
inductive Done.Purged (done : Done) (message : OutboxMessage) : Prop
  | pruned (isPrune : done.request = .pruneOldOutbox) (now : Sent) (today : Date)
      (cutoff : Instant) (sent : now ∈ done.transaction.trace) (asked : now.statement = .now)
      (isToday : berlinDate now.env.now = some today)
      (isCutoff : instantMonthsAgo today outboxRetentionMonths = some cutoff)
      (old : message.createdAt < cutoff) : Done.Purged done message
  | tombstoned (isTombstone : done.request = .tombstoneDeletedCompanies) (claim : Sent)
      (threshold : Instant) (company : Company) (sent : claim ∈ done.transaction.trace)
      (asked : claim.statement = .companiesToDelete threshold)
      (isDue : company ∈ claim.companiesToDelete threshold)
      (own : message.companyId = company.id) : Done.Purged done message

section Purge

variable {sha256 : Str → Str} {validateKennzeichen : Str → Option Str}
variable {start : World} {done : Done} {result : Outcome}

theorem pruned_takesOut
    (ended : postgres.Ends (transaction (Request.pruneOldOutbox.body sha256 validateKennzeichen))
      (Session.opened none start.clock) (.ok result) done.transaction)
    (isPrune : done.request = .pruneOldOutbox) :
    TakesOut (Done.Purged done) done.transaction := by
  rcases transaction_ends ended with ⟨_, middle, _, body, executed⟩ | ⟨_, same, _⟩
  swap
  · cases same
  rcases ends_return.mp body with ⟨count, _, ran⟩ | ⟨_, same, _⟩
  swap
  · cases same
  obtain ⟨now, timed, ⟨today, isToday, ran⟩ | ⟨_, same, _⟩⟩ := step_todayBerlin ran
  swap
  · cases same
  rcases step_orThrow ran with ⟨cutoff, isCutoff, ran⟩ | ⟨_, same, _⟩
  swap
  · cases same
  have opened : TakesOut (Done.Purged done) (Session.opened none start.clock) := .opened _ _
  have saw : TakesOut (Done.Purged done) ((Session.opened none start.clock).saw now) :=
    ⟨opened.pending, opened.journal⟩
  have grown : now ∈ middle.trace := (Server.ends_trace ran).subset (by simp)
  have inTrace : now ∈ done.transaction.trace := executed.grown.trace.subset grown
  have kept := takesOut_before (fun row old =>
    .pruned isPrune now today cutoff inTrace timed.statement isToday isCutoff old) _ _ _ ran saw
  exact (kept.withPending (by simp)).executed
    (fun write member => kept.pending write (mem_unitOfWork.mp member)) executed

theorem tombstoned_takesOut
    (ended : postgres.Ends
      (transaction (Request.tombstoneDeletedCompanies.body sha256 validateKennzeichen))
      (Session.opened none start.clock) (.ok result) done.transaction)
    (isTombstone : done.request = .tombstoneDeletedCompanies) :
    TakesOut (Done.Purged done) done.transaction := by
  rcases transaction_ends ended with ⟨_, middle, _, body, executed⟩ | ⟨_, same, _⟩
  swap
  · cases same
  rcases ends_return.mp body with ⟨count, _, ran⟩ | ⟨_, same, _⟩
  swap
  · cases same
  obtain ⟨now, timed, ran⟩ := step_now ran
  rcases ends_then.mp ran with ⟨companies, base, first, rest⟩ | ⟨_, same, _⟩
  swap
  · cases same
  obtain ⟨claim, asked, isCompanies, rfl⟩ :=
    sends_companiesToDelete ((select_ends_clean (by rfl)).mp first)
  cases isCompanies
  have opened : TakesOut (Done.Purged done) (Session.opened none start.clock) := .opened _ _
  have saw : TakesOut (Done.Purged done)
      (((Session.opened none start.clock).saw now).saw claim) := ⟨opened.pending, opened.journal⟩
  rcases ends_then.mp rest with ⟨⟨⟩, last, loop, same, isMiddle⟩ | ⟨_, same, _⟩
  swap
  · cases same
  have grown : claim ∈ last.trace := (Server.ends_trace loop).subset (by simp)
  have inTrace : claim ∈ done.transaction.trace :=
    executed.grown.trace.subset (by rw [Session.withPending_trace, isMiddle]; exact grown)
  have each : ∀ company ∈ claim.companiesToDelete
      (plusSeconds now.env.now (-(companyDeleteGraceDays * 86400))),
      postgres.Preserves (TakesOut (Done.Purged done)) (tombstoneCompany company) := by
    intro company member
    exact takesOut_tombstoneCompany fun row own =>
      .tombstoned isTombstone claim _ company inTrace asked.statement member own
  have kept := Server.preserves_forEach each _ _ _ loop saw
  rw [← isMiddle] at kept
  exact (kept.withPending (by simp)).executed
    (fun write member => kept.pending write (mem_unitOfWork.mp member)) executed

def Write.KeepsRows : Write → Prop
  | .deleteOutbox _ => False
  | _ => True

theorem others_keepRows : GrantsOthers Write.KeepsRows where
  log _ := trivial
  unlocked _ := trivial
  resolved _ := trivial
  completed _ _ := trivial
  successor _ := trivial
  driver _ _ _ _ _ := trivial
  vehicle _ := trivial
  breached _ _ _ _ _ := trivial
  nagged _ _ _ _ _ _ := trivial
  reminded _ _ _ _ _ _ _ _ _ _ := trivial
  anonymized _ _ _ := trivial

theorem e6_keepsRows : GrantsE6 Write.KeepsRows :=
  ⟨fun _ _ => trivial, fun _ => trivial, fun _ _ _ _ _ => trivial, fun _ _ _ _ _ _ _ => trivial⟩

theorem request_keepsRows {request : Request} (keeps : ¬ request.Purges) {world : World}
    {outcome : Except Error Outcome} {after : Session}
    (ended : (system sha256 validateKennzeichen).Ends
      ((system sha256 validateKennzeichen).program request)
      ((system sha256 validateKennzeichen).opening world request) outcome after) :
    OnlyEver Write.KeepsRows after := by
  by_cases relay : request = .relayOutbox
  · subst relay
    have kept : postgres.Preserves (OnlyEver Write.KeepsRows) relayOutbox :=
      only_relayOutbox (fun _ _ => trivial) fun _ _ _ => trivial
    exact only_transaction (only_then kept fun _ => only_pure _) _ _ _ ended (.opening _ _)
  · exact request_only_of others_keepRows relay (fun _ => e6_keepsRows)
      (fun purges => absurd purges keeps) _ _ _ ended (.opening _ _)

theorem request_takesOut (purges : Request.Purges done.request)
    (ended : (system sha256 validateKennzeichen).Ends
      ((system sha256 validateKennzeichen).program done.request)
      ((system sha256 validateKennzeichen).opening start done.request) (.ok result)
      done.transaction) : TakesOut (Done.Purged done) done.transaction := by
  generalize isRequest : done.request = request at purges ended
  cases request with
  | pruneOldOutbox => exact pruned_takesOut ended isRequest
  | tombstoneDeletedCompanies => exact tombstoned_takesOut ended isRequest
  | _ => exact purges.elim

variable {policy : Library.Policy World Memory Connection Statement Env Request}
variable {Inv : World → Prop} {Later : World → World → Prop}

/-- **A row that is taken out** was older than the retention, or its company was tombstoned. -/
theorem Over.purged
    (concluded : Library.Over (system sha256 validateKennzeichen) policy readCommitted Inv Later
      done.world done) (well : done.outcome = some (.ok result)) {row : OutboxMessage}
    (found : done.world.db.outbox.find row.id = some row) {ids : List Uuid}
    (deletes : .deleteOutbox ids ∈ Session.writes done.transaction) (inside : row.id ∈ ids) :
    Done.Purged done row := by
  obtain ⟨_, _, start, _, _, chain, ends, _⟩ := concluded
  have ended := ends _ well
  by_cases purges : Request.Purges done.request
  · have takes := request_takesOut purges ended
    obtain ⟨⟨world, action⟩, inJournal, isWrite⟩ := List.mem_filterMap.mp deletes
    cases action with
    | lock ref => cases isWrite
    | write executed =>
        cases isWrite
        obtain ⟨_, same, each⟩ := takes.journal world _ inJournal rfl
        cases same
        obtain ⟨stored, storedIn, isId, purged⟩ := each row.id inside
        -- the deletion holds the row, so it is still the one that was seen
        have locked : (Ref.outbox row.id, world) ∈
            Journal.held Db done.transaction.connection.journal :=
          Journal.held_of_write inJournal (List.mem_map.mpr ⟨_, inside, rfl⟩)
        have kept : done.world.db.outbox.find row.id = world.db.outbox.find row.id :=
          chain.kept _ locked
        have isRow : stored = row := by
          have isStored := Table.find_of_mem storedIn
          simp only [OutboxMessage.key_eq, isId] at isStored
          rw [kept, isStored] at found
          exact Option.some.inj found
        exact isRow ▸ purged
  · exact ((request_keepsRows purges ended).writes _ deletes).elim

end Purge

end Fristenwaechter
