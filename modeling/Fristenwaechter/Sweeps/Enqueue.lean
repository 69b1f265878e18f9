import Fristenwaechter.Sweeps.Outbox

/-!
Owns `_enqueue_unique` and the loops over contacts: after them every contact has its key
in the outbox, from now or from earlier, and nothing else has been added.
-/

namespace Fristenwaechter

open Library (Engine Journal Table)
open Library.Program (forEach)

variable {session after : Session} {db : Db}

theorem sends_outboxKey {key : Str} {answer : Except Error Bool}
    (sent : postgres.Sends (.outboxKey key) session answer after) :
    ∃ entry, session.Asked (.outboxKey key) entry ∧ after = session.saw entry ∧
      answer = .ok (entry.db.outbox.rows.any fun row =>
        entry.connection.sees row.companyId && row.dedupKey = key) := by
  obtain ⟨entry, memory, connection, asked, performed, rfl⟩ := sends_iff.mp sent
  refine ⟨entry, asked, ?_⟩
  rw [Sent.db, asked.connection]
  delta perform at performed
  dsimp only at performed
  obtain ⟨same, rfl, rfl⟩ := reply_inv performed
  exact ⟨rfl, same⟩

theorem outbox_source {writes : List Write} {row : OutboxMessage}
    (member : row ∈ (db.after writes).outbox) :
    ∃ source, source.dedupKey = row.dedupKey ∧
      (source ∈ db.outbox ∨ .insertOutbox source ∈ writes) := by
  induction writes generalizing db with
  | nil => exact ⟨row, rfl, .inl member⟩
  | cons write rest inductionHypothesis =>
      rw [Db.after_cons] at member
      obtain ⟨source, same, old | inserted⟩ := inductionHypothesis member
      swap
      · exact ⟨source, same, .inr (List.mem_cons_of_mem _ inserted)⟩
      cases write with
      | insertOutbox new =>
          rcases Table.mem_insert.mp old with before | ⟨rfl, _⟩
          · exact ⟨source, same, .inl before⟩
          · exact ⟨_, same, .inr List.mem_cons_self⟩
      | updateOutbox loaded current =>
          obtain ⟨before, inDb, isSource⟩ := (Table.mem_update (by simp)).mp old
          refine ⟨before, ?_, .inl inDb⟩
          rw [← same, isSource]
          split <;> rfl
      | deleteOutbox ids => exact ⟨source, same, .inl (Table.mem_remove.mp old).1⟩
      | _ => exact ⟨source, same, .inl old⟩

/-- The key is taken by a row of the database or by one the session has made. -/
def Session.Queues (session : Session) (db : Db) (key : Str) : Prop :=
  ∃ row, row.dedupKey = key ∧ (row ∈ db.outbox ∨ .insertOutbox row ∈ session.made)

theorem Session.Queues.later {allowed : Write → Prop} {key : Str}
    (queues : session.Queues db key) (adds : session.Adds allowed after) : after.Queues db key := by
  obtain ⟨row, own, inDb | inserted⟩ := queues
  · exact ⟨row, own, .inl inDb⟩
  · exact ⟨row, own, .inr (adds.kept _ inserted)⟩

section Unique

variable {companyId : Uuid} {channel : OutboxChannel} {recipient template : Str}
variable {payload : List (Str × Json)} {priority : Nat} {dedupKey : Str}

/-- `_enqueue_unique` adds at most its own message, and its key is taken afterwards. -/
theorem enqueueUnique_adds {added : Bool}
    (ended : postgres.Ends
      (enqueueUnique companyId channel recipient template payload priority dedupKey) session
      (.ok added) after) :
    session.Adds (fun write => ∃ id, write = .insertOutbox (.staged id
        session.connection.startedAt companyId channel recipient template payload priority
        dedupKey)) after ∧
      ∀ db : Db, (∀ entry ∈ after.trace, entry.world.db = db) → after.Queues db dedupKey := by
  rcases ends_then.mp ended with ⟨taken, read, first, second⟩ | ⟨_, same, _⟩
  swap
  · cases same
  have reads : Adding (fun write => ∃ id, write = .insertOutbox (.staged id
      session.connection.startedAt companyId channel recipient template payload priority
      dedupKey)) (select (.outboxKey dedupKey)) :=
    adding_read (by simp) (by simp) fun _ may => may
  have upTo := reads _ _ _ first
  rcases select_ends first with ⟨middle, executed, sent⟩ | ⟨_, same, _⟩
  swap
  · cases same
  obtain ⟨entry, asked, rfl, isTaken⟩ := sends_outboxKey sent
  cases taken with
  | true =>
      obtain ⟨same, rfl⟩ := second
      refine ⟨upTo, fun db alone => ?_⟩
      have found := (Except.ok.inj isTaken).symm
      rw [List.any_eq_true] at found
      obtain ⟨row, member, holds⟩ := found
      simp only [Bool.and_eq_true, decide_eq_true_eq] at holds
      have inDb : row ∈ entry.db.outbox := member
      rw [asked.db, alone entry (by simp)] at inDb
      obtain ⟨source, own, old | inserted⟩ := outbox_source inDb
      · exact ⟨source, own.trans holds.2, .inl old⟩
      · exact ⟨source, own.trans holds.2, .inr (List.mem_append_left _ inserted)⟩
  | false =>
      obtain ⟨drawn, _, second⟩ := step_serverDefaults second
      obtain ⟨_, rfl⟩ := second
      have start : (middle.saw entry).connection.startedAt = session.connection.startedAt :=
        upTo.startedAt
      have drew : (middle.saw entry).Adds (fun write => ∃ id, write = .insertOutbox (.staged id
          session.connection.startedAt companyId channel recipient template payload priority
          dedupKey)) ((middle.saw entry).saw drawn) :=
        ⟨List.prefix_append _ _, rfl, rfl, fun _ member => member, fun _ member => .inl member⟩
      have may : ∃ id, Write.insertOutbox (.staged drawn.env.fresh
          (middle.saw entry).connection.startedAt companyId channel recipient template payload
          priority dedupKey) = .insertOutbox (.staged id session.connection.startedAt companyId
          channel recipient template payload priority dedupKey) := ⟨_, by rw [start]⟩
      refine ⟨(upTo.trans drew).trans (adding_add may _ () _ ⟨rfl, rfl⟩), fun db _ => ?_⟩
      exact ⟨_, rfl, .inr (List.mem_append_right _ (List.mem_append_right _
        (List.mem_singleton_self _)))⟩

end Unique

section Contacts

variable {companyId : Uuid} {recipients : List Recipient} {template event : Str}
variable {payload : List (Str × Json)} {priority : Nat}

/-- A message for one of the contacts. -/
inductive Messages (companyId : Uuid) (contacts : List (OutboxChannel × Str)) (template : Str)
    (payload : List (Str × Json)) (priority : Nat) (event : Str) (startedAt : Instant) :
    Write → Prop
  | message (id : Uuid) (contact : OutboxChannel × Str) (member : contact ∈ contacts) :
      Messages companyId contacts template payload priority event startedAt
        (.insertOutbox (.staged id startedAt companyId contact.1 contact.2 template payload priority
          (contactKey event contact)))

theorem enqueueForAll_adds
    (ended : postgres.Ends (enqueueForAll companyId recipients template payload priority event)
      session (.ok ()) after) :
    session.Adds (Messages companyId (recipients.flatMap channels) template payload priority event
        session.connection.startedAt) after ∧
      ∀ db : Db, (∀ entry ∈ after.trace, entry.world.db = db) →
        ∀ contact ∈ recipients.flatMap channels, after.Queues db (contactKey event contact) := by
  unfold enqueueForAll at ended
  generalize recipients.flatMap channels = contacts at ended
  induction contacts generalizing session with
  | nil =>
      obtain ⟨_, rfl⟩ := ended
      exact ⟨.refl _, fun _ => by simp⟩
  | cons contact rest inductionHypothesis =>
      rcases ends_then.mp ended with ⟨⟨⟩, middle, first, second⟩ | ⟨_, same, _⟩
      swap
      · cases same
      rcases ends_then.mp first with ⟨added, last, own, done⟩ | ⟨_, same, _⟩
      swap
      · cases same
      obtain ⟨_, rfl⟩ := done
      obtain ⟨ownAdds, ownQueues⟩ := enqueueUnique_adds own
      obtain ⟨restAdds, restQueues⟩ := inductionHypothesis second
      rw [ownAdds.startedAt] at restAdds
      have whole : session.Adds (Messages companyId (contact :: rest) template payload priority
          event session.connection.startedAt) after := by
        refine (ownAdds.mono ?_).trans (restAdds.mono ?_)
        · rintro write ⟨id, rfl⟩
          exact .message id contact List.mem_cons_self
        · rintro write ⟨id, target, member⟩
          exact .message id target (List.mem_cons_of_mem _ member)
      refine ⟨whole, fun db alone target member => ?_⟩
      rcases List.mem_cons.mp member with rfl | member
      · refine Session.Queues.later (ownQueues db fun entry inTrace => ?_) restAdds
        exact alone entry (restAdds.trace.subset inTrace)
      · exact restQueues db alone target member

end Contacts

end Fristenwaechter
