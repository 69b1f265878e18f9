import Fristenwaechter.Behaviour.Grants
import Fristenwaechter.Library.Triple
import Fristenwaechter.Tenancy.Rows

/-!
Owns the confinement of a tenant's session: everything it executes or has pending inserts
rows of its company or updates rows that belong to it, in whatever state it may be
committed. What a session knows about a row is foreseen: true wherever others let its
writes be replayed after what its statements have seen.
-/

namespace Fristenwaechter

open Library (Journal Server Table)
open Library.Program (forEach)

variable {companyId : Uuid} {known : List Ref} {session after : Session} {Result Final : Type}

/-! ### Foreseen facts -/

/-- A state that everything in the trace persists into. -/
def Follows (trace : List Sent) (db : Db) : Prop :=
  ∀ entry ∈ trace, Persists entry.world.db db

/-- What holds after the writes, wherever they can be replayed later. -/
def Foreseen (trace : List Sent) (writes : List Write) (fact : Db → Prop) : Prop :=
  ∀ db, Follows trace db → Journal.Replays writes db → fact (db.after writes)

theorem Foreseen.saw {trace more : List Sent} {writes : List Write} {fact : Db → Prop}
    (foreseen : Foreseen trace writes fact) : Foreseen (trace ++ more) writes fact :=
  fun db follows => foreseen db fun entry member => follows entry (List.mem_append_left _ member)

theorem Foreseen.wrote {trace : List Sent} {writes more : List Write} {fact : Db → Prop}
    (persistent : ∀ {before after}, Persists before after → fact before → fact after)
    (foreseen : Foreseen trace writes fact) : Foreseen trace (writes ++ more) fact := by
  intro db follows replays
  obtain ⟨one, two⟩ := Journal.replays_append.mp replays
  rw [Db.after_append]
  have persists : Persists (db.after writes) ((db.after writes).after more) := persists_after two
  exact persistent persists (foreseen db follows one)

theorem Foreseen.always {trace : List Sent} {writes : List Write} {fact : Db → Prop}
    (always : ∀ db, fact db) : Foreseen trace writes fact :=
  fun _ _ _ => always _

theorem Session.Asked.holds {statement : Statement} {entry : Sent} {ref : Ref}
    (asked : session.Asked statement entry) (holds : entry.db.Holds companyId ref) :
    Foreseen (session.trace ++ [entry]) session.writes fun db => db.Holds companyId ref := by
  intro db follows replays
  rw [asked.db] at holds
  rcases holds.origins with before | ⟨write, member, brings⟩
  · exact (before.later (follows entry (by simp))).later (persists_after replays)
  · exact .replayed replays member brings

/-- Every write is the company's own where those before it have led. -/
def AllOwned (companyId : Uuid) (trace : List Sent) (writes : List Write) : Prop :=
  ∀ done write rest, writes = done ++ write :: rest →
    Foreseen trace done (write.Owned companyId)

theorem AllOwned.saw {trace more : List Sent} {writes : List Write}
    (owned : AllOwned companyId trace writes) : AllOwned companyId (trace ++ more) writes :=
  fun done write rest whole => (owned done write rest whole).saw

theorem AllOwned.take {trace : List Sent} {first second : List Write}
    (owned : AllOwned companyId trace (first ++ second)) : AllOwned companyId trace first :=
  fun done write rest whole =>
    owned done write (rest ++ second) (by rw [whole, List.append_assoc, List.cons_append])

theorem AllOwned.wrote {trace : List Sent} {writes : List Write} {write : Write}
    (owned : AllOwned companyId trace writes)
    (new : Foreseen trace writes (write.Owned companyId)) :
    AllOwned companyId trace (writes ++ [write]) := by
  intro done other rest whole
  rcases List.eq_nil_or_concat rest with rfl | ⟨front, last, rfl⟩
  · obtain ⟨rfl, same⟩ := List.append_inj' whole rfl
    cases same
    exact new
  · rw [List.concat_eq_append, ← List.cons_append, ← List.append_assoc] at whole
    exact owned done other front (List.append_inj' whole rfl).1

/-- The object of a deadline names its company, which its successor copies. -/
def Write.Named (companyId : Uuid) : Write → Prop
  | .updateDeadline _ current => current.companyId = companyId
  | _ => True

/-- A write that will be the company's own where the writes before it lead. -/
structure Write.Planned (companyId : Uuid) (trace : List Sent) (writes : List Write)
    (write : Write) : Prop where
  named : write.Named companyId
  owned : Foreseen trace writes (write.Owned companyId)

theorem Write.Planned.saw {trace more : List Sent} {writes : List Write} {write : Write}
    (planned : write.Planned companyId trace writes) :
    write.Planned companyId (trace ++ more) writes :=
  ⟨planned.named, planned.owned.saw⟩

theorem Write.Planned.wrote {trace : List Sent} {writes more : List Write} {write : Write}
    (planned : write.Planned companyId trace writes) :
    write.Planned companyId trace (writes ++ more) :=
  ⟨planned.named, planned.owned.wrote Write.Owned.later⟩

/-! ### Confined sessions -/

/-- The statements whose answers depend on nothing but the rows that the session sees. -/
def Statement.isLocal : Statement → Bool
  | .openCasesForUpdate => false
  | .dueOutbox _ _ => false
  | .deleteOutboxBefore _ => false
  | .deleteOutboxOf _ => false
  | .revokeSessionsOf _ _ => false
  | .acceptInvitationsOf _ _ => false
  | _ => true

/-- A statement of the company, after the ones before it. -/
structure Sent.Confined (companyId : Uuid) (past : List Sent) (entry : Sent) : Prop where
  tenant : entry.connection.tenant = some companyId
  writes : AllOwned companyId past entry.connection.journal.writes
  executes : ∀ write, entry.statement = .execute write →
    Foreseen past entry.connection.journal.writes (write.Owned companyId)
  isLocal : entry.statement.isLocal = true

/-- A session that stays inside its company, and the rows it knows to belong to it. -/
structure Confined (companyId : Uuid) (known : List Ref) (session : Session) : Prop where
  tenant : session.connection.tenant = some companyId
  writes : AllOwned companyId session.trace session.writes
  pending : ∀ write ∈ session.memory.pending,
    write.Planned companyId session.trace session.writes
  copies : ∀ copy ∈ session.memory.deadlines, copy.companyId = companyId
  known : ∀ ref ∈ known,
    Foreseen session.trace session.writes fun db => db.Holds companyId ref
  sent : ∀ past entry rest, session.trace = past ++ entry :: rest →
    Sent.Confined companyId past entry

theorem Confined.forget (confined : Confined companyId known session) :
    Confined companyId [] session :=
  { confined with known := by simp }

theorem Confined.learns {ref : Ref} (confined : Confined companyId known session)
    (holds : Foreseen session.trace session.writes fun db => db.Holds companyId ref) :
    Confined companyId (ref :: known) session := by
  refine { confined with known := fun other member => ?_ }
  rcases List.mem_cons.mp member with rfl | old
  · exact holds
  · exact confined.known other old

theorem Confined.withPending {pending : List Write} (confined : Confined companyId known session)
    (planned : ∀ write ∈ pending, write.Planned companyId session.trace session.writes) :
    Confined companyId known (session.withPending pending) :=
  ⟨confined.tenant, confined.writes, planned, confined.copies, confined.known, confined.sent⟩

theorem Confined.asked {statement : Statement} {entry : Sent}
    (confined : Confined companyId known session) (asked : session.Asked statement entry)
    (isLocal : statement.isLocal = true)
    (executes : ∀ write, statement = .execute write →
      Foreseen session.trace session.writes (write.Owned companyId)) :
    ∀ past other rest, session.trace ++ [entry] = past ++ other :: rest →
      Sent.Confined companyId past other := by
  intro past other rest whole
  rcases List.eq_nil_or_concat rest with rfl | ⟨front, last, rfl⟩
  · obtain ⟨rfl, same⟩ := List.append_inj' whole rfl
    cases same
    refine ⟨?_, ?_, ?_, ?_⟩
    · rw [asked.connection]
      exact confined.tenant
    · rw [asked.connection]
      exact confined.writes
    · rw [asked.connection, asked.statement]
      exact executes
    · rw [asked.statement]
      exact isLocal
  · rw [List.concat_eq_append, ← List.cons_append, ← List.append_assoc] at whole
    exact confined.sent past other front (List.append_inj' whole rfl).1

/-- A copy of a deadline in memory was there, is a visible row, or has just been written. -/
theorem perform_deadlines {world : World} {env : Env} {others : List Connection}
    {memory memory' : Memory} {connection connection' : Connection} {statement : Statement}
    {answer : Except Error (Answer statement)}
    (performed : perform world env others memory connection statement =
      some (answer, memory', connection')) :
    ∀ copy ∈ memory'.deadlines, copy ∈ memory.deadlines ∨
      connection.sees copy.companyId = true ∨
        ∃ loaded, statement = .execute (.updateDeadline loaded copy) := by
  have loads : ∀ {row : Deadline}, connection.sees row.companyId = true →
      ∀ copy ∈ (memory.loadDeadline row).deadlines,
        copy ∈ memory.deadlines ∨ connection.sees copy.companyId = true := by
    intro row visible copy member
    simp only [Memory.loadDeadline, Memory.loaded] at member
    split at member
    · exact .inl member
    · rcases List.mem_cons.mp member with rfl | old
      · exact .inr visible
      · exact .inl old
  have flushes : ∀ {write : Write}, ∀ copy ∈ (memory.flushed write).deadlines,
      copy ∈ memory.deadlines ∨ ∃ loaded, write = .updateDeadline loaded copy := by
    intro write copy member
    cases write with
    | updateDeadline loaded current =>
        rcases List.mem_cons.mp member with rfl | old
        · exact .inr ⟨loaded, rfl⟩
        · exact .inl (List.mem_filter.mp old).1
    | _ => exact .inl member
  delta perform at performed
  cases statement <;> dsimp only at performed
  case deadlineForUpdate id companyId =>
    split at performed
    · rw [(reply_inv performed).2.1]
      exact fun copy member => .inl member
    · rename_i row found
      obtain ⟨_, _, isMemory, _⟩ := lockAndReply_inv (lockRowAndReply_inv performed)
      have visible := (Option.filter_eq_some_iff.mp found).2
      simp only [Bool.and_eq_true] at visible
      intro copy member
      rcases loads visible.1 copy (isMemory ▸ member) with old | seen
      · exact .inl old
      · exact .inr (.inl seen)
  case openDeadline subject kind =>
    split at performed
    · rw [(reply_inv performed).2.1]
      exact fun copy member => .inl member
    · rename_i row found
      obtain ⟨_, isMemory, _⟩ := reply_inv performed
      have visible := (List.mem_filter.mp (List.mem_of_getElem? found)).2
      simp only [Bool.and_eq_true] at visible
      intro copy member
      rcases loads visible.1.1.1 copy (isMemory ▸ member) with old | seen
      · exact .inl old
      · exact .inr (.inl seen)
  case execute write =>
    obtain ⟨_, ⟨_, _, _, isMemory, _⟩ | ⟨_, _, isMemory, _⟩⟩ := executeAndReply_inv performed
    · rw [isMemory]
      exact fun copy member => .inl member
    · intro copy member
      rcases flushes copy (isMemory ▸ member) with old | ⟨loaded, same⟩
      · exact .inl old
      · exact .inr (.inr ⟨loaded, by rw [same]⟩)
  case rollbackTo =>
    rw [(reply_inv performed).2.1]
    exact fun copy member => absurd member List.not_mem_nil
  case deliver message =>
    split at performed
    · rw [(reply_inv performed).2.1]
      exact fun copy member => .inl member
    · rw [(reply_inv performed).2.1]
      exact fun copy member => .inl member
    · cases performed
      exact fun copy member => .inl member
  case deleteOutboxBefore cutoff =>
    obtain ⟨_, ⟨_, _, _, isMemory, _⟩ | ⟨_, _, isMemory, _⟩⟩ := executeAndReply_inv performed
    all_goals exact isMemory ▸ fun copy member => .inl member
  case deleteOutboxOf company =>
    obtain ⟨_, ⟨_, _, _, isMemory, _⟩ | ⟨_, _, isMemory, _⟩⟩ := executeAndReply_inv performed
    all_goals exact isMemory ▸ fun copy member => .inl member
  case revokeSessionsOf company now =>
    obtain ⟨_, ⟨_, _, _, isMemory, _⟩ | ⟨_, _, isMemory, _⟩⟩ := executeAndReply_inv performed
    all_goals exact isMemory ▸ fun copy member => .inl member
  case acceptInvitationsOf company now =>
    obtain ⟨_, ⟨_, _, _, isMemory, _⟩ | ⟨_, _, isMemory, _⟩⟩ := executeAndReply_inv performed
    all_goals exact isMemory ▸ fun copy member => .inl member
  all_goals
    try split at performed
    all_goals first
      | exact (reply_inv performed).2.1 ▸ fun copy member => .inl member
      | exact (lockAndReply_inv performed).2.2.1 ▸ fun copy member => .inl member
      | exact (lockAndReply_inv (lockRowAndReply_inv performed)).2.2.1 ▸
          fun copy member => .inl member

theorem Confined.sends {statement : Statement} {answer : Except Error (Answer statement)}
    (confined : Confined companyId known session)
    (sent : postgres.Sends statement session answer after) (isLocal : statement.isLocal = true)
    (kept : statement ≠ .rollbackTo) (reads : ∀ write, ¬ statement.MayWrite write) :
    Confined companyId known after := by
  obtain ⟨entry, memory, connection, asked, performed, rfl⟩ := sends_iff.mp sent
  have stepped := perform_stepped performed
  have noWrite : ∀ write, statement ≠ .execute write := by
    rintro write rfl
    exact reads write rfl
  have writes : connection.journal.writes = session.writes := by
    rcases stepped.grows with same | ⟨refs, _, grown⟩ | ⟨write, may, _⟩ | ⟨rollback, _⟩
    · rw [same]
      rfl
    · rw [grown, Journal.writes_append, Journal.writes_locks, List.append_nil]
      rfl
    · exact absurd may (reads write)
    · exact absurd rollback kept
  refine ⟨stepped.tenant.trans confined.tenant, ?_, ?_, ?_, ?_, ?_⟩
  · change AllOwned companyId (session.trace ++ [entry]) connection.journal.writes
    rw [writes]
    exact confined.writes.saw
  · intro write member
    change write.Planned companyId (session.trace ++ [entry]) connection.journal.writes
    rw [writes]
    rcases stepped.pending with same | ⟨rollback, _⟩
    · exact (confined.pending write (same ▸ member)).saw
    · exact absurd rollback kept
  · intro copy member
    rcases perform_deadlines performed copy member with old | visible | ⟨loaded, same⟩
    · exact confined.copies copy old
    · have same : companyId = copy.companyId := by
        simpa [Connection.sees, confined.tenant] using visible
      exact same.symm
    · exact absurd same (noWrite _)
  · intro ref member
    change Foreseen (session.trace ++ [entry]) connection.journal.writes _
    rw [writes]
    exact (confined.known ref member).saw
  · exact confined.asked asked isLocal fun write same => absurd same (noWrite write)

theorem Confined.refused {write : Write} {entry : Sent}
    (confined : Confined companyId known session)
    (asked : session.Asked (.execute write) entry)
    (planned : write.Planned companyId session.trace session.writes) :
    Confined companyId known (session.saw entry) := by
  refine ⟨confined.tenant, confined.writes.saw, fun other member => ?_, confined.copies,
    fun ref member => (confined.known ref member).saw, ?_⟩
  · exact (confined.pending other member).saw
  · exact confined.asked asked rfl fun other same => by
      cases same
      exact planned.owned

theorem Confined.wrote {write : Write} {entry : Sent}
    (confined : Confined companyId known session)
    (asked : session.Asked (.execute write) entry)
    (planned : write.Planned companyId session.trace session.writes) :
    Confined companyId known (session.wrote entry write) := by
  refine ⟨confined.tenant, ?_, fun other member => ?_, fun copy member => ?_,
    fun ref member => ?_, ?_⟩
  · rw [Session.wrote_writes]
    exact (confined.writes.wrote planned.owned).saw
  · rw [Session.wrote_memory, Memory.flushed_pending] at member
    rw [Session.wrote_writes]
    exact (confined.pending other member).wrote.saw
  · rw [Session.wrote_memory] at member
    cases write with
    | updateDeadline loaded current =>
        rcases List.mem_cons.mp member with rfl | old
        · exact planned.named
        · exact confined.copies copy (List.mem_filter.mp old).1
    | _ => exact confined.copies copy member
  · rw [Session.wrote_writes]
    exact ((confined.known ref member).wrote Db.Holds.later).saw
  · exact confined.asked asked rfl fun other same => by
      cases same
      exact planned.owned

end Fristenwaechter
