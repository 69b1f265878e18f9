import Fristenwaechter.Behaviour.Made
import Fristenwaechter.Library.Serial
import Fristenwaechter.Relay.Delivery
import Fristenwaechter.Sweeps.Keys

/-!
Owns the outbox over serial runs without the relay: what a committed transaction has
enqueued, what the prune of old rows takes out, and for how long a dedup key stays
taken.
-/

namespace Fristenwaechter

open Library (Engine Journal Served Serial Table)

section Serving

variable {sha256 : Str → Str} {validateKennzeichen : Str → Option Str}
variable {before after : World} {done : Done}

theorem drifts_iff : (system sha256 validateKennzeichen).Drifts before after →
    after.db = before.db ∧ before.clock ≤ after.clock := by
  intro drifts
  induction drifts with
  | refl => exact ⟨rfl, le_refl _⟩
  | tail _ step inductionHypothesis =>
      obtain ⟨env, possible, rfl⟩ := step
      have ticks : _ < env.now := of_decide_eq_true possible
      exact ⟨inductionHypothesis.1, inductionHypothesis.2.trans (le_of_lt ticks)⟩

/-- What a transaction that is served alone has seen: one database, and instants between
its start and its end. -/
theorem served_sees
    (served : Served (system sha256 validateKennzeichen) readCommitted before done) :
    done.world.db = before.db ∧ ∀ entry ∈ done.transaction.trace, entry.world.db = before.db ∧
      before.clock ≤ entry.env.now ∧ entry.env.now ≤ done.world.clock := by
  refine ⟨(drifts_iff served.drifts).1, fun entry member => ?_⟩
  obtain ⟨_, possible, since, upTo⟩ := served.seen entry member
  have ticks : entry.world.clock < entry.env.now := of_decide_eq_true possible
  exact ⟨(drifts_iff since).1, (drifts_iff since).2.trans (le_of_lt ticks), (drifts_iff upTo).2⟩

end Serving

/-! ### Enqueued rows -/

def Write.message : Write → Option OutboxMessage
  | .insertOutbox row => some row
  | _ => none

def Done.messages (done : Done) : List OutboxMessage :=
  if done.isCommitted then (Session.writes done.transaction).filterMap Write.message else []

def messagesOf (history : List Done) : List OutboxMessage :=
  history.flatMap Done.messages

theorem mem_message {writes : List Write} {row : OutboxMessage} :
    row ∈ writes.filterMap Write.message ↔ .insertOutbox row ∈ writes := by
  rw [List.mem_filterMap]
  constructor
  · rintro ⟨write, member, isMessage⟩
    cases write <;> cases isMessage
    exact member
  · exact fun member => ⟨_, member, rfl⟩

theorem messagesOf_append (history : List Done) (done : Done) :
    messagesOf (history ++ [done]) = messagesOf history ++ done.messages := by
  simp [messagesOf]

/-- A write that changes and deletes no outbox row. -/
def Write.KeepsOutbox : Write → Prop
  | .updateOutbox _ _ => False
  | .deleteOutbox _ => False
  | _ => True

theorem insertOutbox_checked {row : OutboxMessage} {db : Db}
    (valid : (Write.insertOutbox row).check db = .ok ()) :
    db.outbox.find row.id = none ∧ ∀ stored ∈ db.outbox, stored.dedupKey ≠ row.dedupKey := by
  simp only [Write.check, requireNew, OutboxMessage.key_eq, require_then_eq_ok, require_eq_ok,
    Option.isNone_iff_eq_none, List.all_eq_true, decide_eq_true_eq] at valid
  exact valid.2

/-- **Unique keys.** Rows are only added, and each with a key that was free. -/
theorem outbox_grows {writes : List Write} {db : Db} (replays : Journal.Replays writes db)
    (all : ∀ write ∈ writes, write.KeepsOutbox) :
    (∀ row ∈ db.outbox, row ∈ (db.after writes).outbox) ∧
      (∀ row ∈ writes.filterMap Write.message, row ∈ (db.after writes).outbox ∧
        ∀ stored ∈ db.outbox, stored.dedupKey ≠ row.dedupKey) ∧
      ((writes.filterMap Write.message).map OutboxMessage.dedupKey).Nodup := by
  induction writes generalizing db with
  | nil => exact ⟨fun row member => member, by simp, by simp⟩
  | cons write rest inductionHypothesis =>
      have valid : write.check db = .ok () := replays.1
      have later : Journal.Replays rest (write.apply db) := replays.2
      obtain ⟨kept, added, distinct⟩ := inductionHypothesis later fun other member =>
        all other (List.mem_cons_of_mem _ member)
      rw [Db.after_cons]
      have keeps := all write List.mem_cons_self
      cases write with
      | insertOutbox new =>
          obtain ⟨free, unused⟩ := insertOutbox_checked valid
          have grown : ∀ row ∈ db.outbox, row ∈ db.outbox.insert new := fun row member =>
            Table.mem_insert.mpr (.inl member)
          have inserted : new ∈ db.outbox.insert new :=
            Table.mem_insert.mpr (.inr ⟨rfl, free⟩)
          refine ⟨fun row member => kept row (grown row member), ?_, ?_⟩
          · intro row member
            rcases List.mem_cons.mp member with rfl | member
            · exact ⟨kept row inserted, unused⟩
            · exact ⟨(added row member).1, fun stored inDb =>
                (added row member).2 stored (grown stored inDb)⟩
          · refine List.nodup_cons.mpr ⟨fun again => ?_, distinct⟩
            obtain ⟨row, member, same⟩ := List.mem_map.mp again
            exact (added row member).2 new inserted same.symm
      | updateOutbox loaded current => exact keeps.elim
      | deleteOutbox ids => exact keeps.elim
      | _ => exact ⟨kept, added, distinct⟩

/-! ### The prune -/

def Sent.pruned (entry : Sent) (cutoff : Instant) : List Uuid :=
  (entry.db.outbox.rows.filter fun row =>
    entry.connection.sees row.companyId && row.createdAt < cutoff).map OutboxMessage.id

theorem sends_deleteOutboxBefore {session after : Session} {cutoff : Instant}
    {answer : Except Error Nat}
    (sent : postgres.Sends (.deleteOutboxBefore cutoff) session answer after) :
    ∃ entry, session.Asked (.deleteOutboxBefore cutoff) entry ∧
      after.memory.pending = session.memory.pending ∧
      after.writes = session.writes ++ [.deleteOutbox (entry.pruned cutoff)] ∧
      session.trace ++ [entry] = after.trace := by
  obtain ⟨entry, memory, connection, asked, performed, rfl⟩ := sends_iff.mp sent
  refine ⟨entry, asked, ?_⟩
  rw [Sent.pruned, Sent.db, asked.connection]
  delta perform at performed
  dsimp only at performed
  obtain ⟨_, ⟨error, failed, _⟩ | ⟨_, _, rfl, rfl⟩⟩ := executeAndReply_inv performed
  · cases failed
  · refine ⟨by simp, ?_, rfl⟩
    simp [Session.writes, Connection.write, Journal.writes_append]
    rfl

/-- What the prune of old rows does. -/
structure Prunes (start : World) (done : Done) (now : Instant) (today : Date) (cutoff : Instant) :
    Prop where
  since : start.clock ≤ now
  upTo : now ≤ done.world.clock
  isToday : berlinDate now = some today
  isCutoff : instantMonthsAgo today outboxRetentionMonths = some cutoff
  messages : done.messages = []
  tables : ∀ write ∈ Session.writes done.transaction, write.table = .outbox
  rows : ∀ row ∈ start.db.outbox, row ∈ done.result.outbox ∨ row.createdAt < cutoff

section Prune

variable {sha256 : Str → Str} {validateKennzeichen : Str → Option Str}

theorem prunes_of_served {start : World} {done : Done}
    (served : Served (system sha256 validateKennzeichen) readCommitted start done)
    (isPrune : done.request = .pruneOldOutbox) {result : Outcome}
    (well : done.outcome = some (.ok result)) :
    ∃ now today cutoff, Prunes start done now today cutoff := by
  obtain ⟨sameDb, seen⟩ := served_sees served
  have ended := served.ends _ well
  rw [isPrune] at ended
  have ends : postgres.Ends (transaction (Request.pruneOldOutbox.body sha256 validateKennzeichen))
      (Session.opened none start.clock) (.ok result) done.transaction := ended
  rcases transaction_ends ends with ⟨_, middle, _, body, executed⟩ | ⟨_, same, _⟩
  swap
  · cases same
  rcases ends_return.mp body with ⟨count, _, ran⟩ | ⟨_, same, _⟩
  swap
  · cases same
  obtain ⟨now, timed, ⟨today, isToday, ran⟩ | ⟨_, same, _⟩⟩ := step_todayBerlin ran
  swap
  · cases same
  rcases step_orThrow ran with ⟨cutoff, isCutoff, ran⟩ | ⟨_, same, _⟩
  swap
  · cases same
  have sent := (select_ends_clean (by rfl)).mp ran
  obtain ⟨entry, asked, pending, writes, trace⟩ := sends_deleteOutboxBefore sent
  have clean : middle.memory.pending = [] := pending
  rw [clean] at executed
  have whole : Session.writes done.transaction = [.deleteOutbox (entry.pruned cutoff)] := by
    rw [executed.writes]
    change middle.writes ++ [] = _
    rw [List.append_nil]
    exact writes
  have inTrace : ∀ other ∈ middle.trace, other ∈ done.transaction.trace :=
    executed.grown.trace.subset
  have entryIn : entry ∈ done.transaction.trace := inTrace entry (by simp [← trace])
  have nowIn : now ∈ done.transaction.trace := inTrace now (by simp [← trace])
  have stored : entry.db = start.db := by
    rw [asked.db, (seen entry entryIn).1]
    rfl
  refine ⟨now.env.now, today, cutoff, (seen now nowIn).2.1, (seen now nowIn).2.2, isToday, isCutoff,
    ?_, ?_, ?_⟩
  · simp [Done.messages, whole, Write.message]
  · intro write member
    rw [whole] at member
    exact List.mem_singleton.mp member ▸ rfl
  · intro row member
    by_cases old : row.createdAt < cutoff
    · exact .inr old
    · left
      rw [Done.result, whole, sameDb]
      refine Table.mem_remove.mpr ⟨member, fun inside => ?_⟩
      obtain ⟨other, isOther, same⟩ := List.mem_map.mp inside
      rw [stored] at isOther
      obtain ⟨otherIn, holds⟩ := List.mem_filter.mp isOther
      have isRow : other = row := Table.eq_of_key otherIn member same
      rw [isRow] at holds
      simp only [Bool.and_eq_true, decide_eq_true_eq] at holds
      exact old holds.2

end Prune

/-! ### How long a key stays taken -/

/-- The row is still there, or a prune has come since that may have taken it. -/
def Retained (world : World) (row : OutboxMessage) : Prop :=
  row ∈ world.db.outbox ∨ ∃ now today cutoff, now ≤ world.clock ∧ berlinDate now = some today ∧
    instantMonthsAgo today outboxRetentionMonths = some cutoff ∧ row.createdAt < cutoff

theorem Retained.later {before after : World} {row : OutboxMessage} (retained : Retained before row)
    (rows : ∀ row ∈ before.db.outbox, row ∈ after.db.outbox)
    (clock : before.clock ≤ after.clock) : Retained after row := by
  rcases retained with there | ⟨now, today, cutoff, upTo, rest⟩
  · exact .inl (rows row there)
  · exact .inr ⟨now, today, cutoff, upTo.trans clock, rest⟩

theorem Prunes.retained {start : World} {done : Done} {now : Instant} {today : Date}
    {cutoff : Instant} (prunes : Prunes start done now today cutoff) {row : OutboxMessage}
    (retained : Retained start row) :
    Retained { done.world with db := done.result } row := by
  rcases retained with there | ⟨earlier, day, limit, upTo, rest⟩
  · rcases prunes.rows row there with still | old
    · exact .inl still
    · exact .inr ⟨now, today, cutoff, prunes.upTo, prunes.isToday, prunes.isCutoff, old⟩
  · exact .inr ⟨earlier, day, limit, upTo.trans (prunes.since.trans prunes.upTo), rest⟩

end Fristenwaechter
