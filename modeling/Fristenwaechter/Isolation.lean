import Fristenwaechter.Session
import Fristenwaechter.Library.Locking

/-!
Owns what READ COMMITTED promises: a statement either leaves the journal of its
connection alone, adds locks that nobody else holds, adds one valid write whose
footprint nobody else holds, or cuts the journal at the savepoint (`perform_stepped`); it
waits for others only (`perform_alone`). Everything the proof rule for interleaved
transactions asks of locks follows (`serving_laws`).
-/

namespace Fristenwaechter

open Library (Table Journal Writes Server Engine Entry Transaction Isolation Laws Locking)
open Library.Journal (held)

/-- PostgreSQL with the mapper in front of it. -/
def postgres : Server World Memory Connection Statement Answer Env Error where
  admissible world env := world.clock < env.now
  advance world env := { world with clock := env.now }
  perform := perform

def World.committed (world : World) (connection : Connection) : World :=
  { world with db := connection.view world.db }

/-- Locked things stay, and the journal can be replayed. -/
def readCommitted : Isolation World Connection Ref where
  Kept ref before after := Kept ref before.db after.db
  Ready world connection := Journal.Replays connection.journal.writes world.db

/-- The writes a statement can execute. -/
def Statement.MayWrite : Statement → Write → Prop
  | .execute write => fun executed => executed = write
  | .deleteOutboxBefore _ => fun executed => ∃ ids, executed = .deleteOutbox ids
  | .deleteOutboxOf _ => fun executed => ∃ ids, executed = .deleteOutbox ids
  | .revokeSessionsOf _ instant => fun executed => ∃ ids, executed = .revokeSessions ids instant
  | .acceptInvitationsOf _ instant => fun executed =>
      ∃ ids, executed = .acceptInvitations ids instant
  | _ => fun _ => False

/-- How one statement changes the journal of its connection. -/
inductive Grows (statement : Statement) (world : World) (others : List Connection)
    (before after : Connection) : Prop
  | same (journal : after.journal = before.journal)
  | locks (refs : List Ref) (free : ∀ ref ∈ refs, heldByOthers others ref = false)
      (journal : after.journal = before.journal ++ refs.map fun ref => (world, .lock ref))
  | writes (write : Write) (may : statement.MayWrite write)
      (free : ∀ ref ∈ write.footprint, heldByOthers others ref = false)
      (valid : write.check (before.view world.db) = .ok ())
      (journal : after.journal = before.journal ++ [(world, .write write)])
  | cuts (rollback : statement = .rollbackTo) (length : Nat)
      (journal : after.journal = before.journal.take length)

/-- What one statement can change: the journal in one of these ways, and the pending
changes and the tenant not at all. -/
structure Stepped (statement : Statement) (world : World) (others : List Connection)
    (memory memory' : Memory) (before after : Connection) : Prop where
  grows : Grows statement world others before after
  pending : memory'.pending = memory.pending ∨ statement = .rollbackTo ∧ memory'.pending = []
  tenant : after.tenant = before.tenant

section Statements

variable {world : World} {env : Env} {others : List Connection}
variable {memory memory' : Memory} {connection connection' : Connection}
variable {statement : Statement} {answer : Except Error (Answer statement)}

theorem reply_inv {given : Answer statement}
    (replied : reply given memory connection = some (answer, memory', connection')) :
    answer = .ok given ∧ memory' = memory ∧ connection' = connection := by
  simpa [reply, eq_comm] using replied

theorem lockAndReply_inv {refs : List Ref} {given : Answer statement}
    (replied : lockAndReply world others refs given memory connection =
      some (answer, memory', connection')) :
    (∀ ref ∈ refs, heldByOthers others ref = false) ∧ answer = .ok given ∧ memory' = memory ∧
      connection' = connection.lock world refs := by
  unfold lockAndReply at replied
  split at replied
  · cases replied
  · rename_i free
    simp only [Option.some.injEq, Prod.mk.injEq] at replied
    obtain ⟨rfl, rfl, rfl⟩ := replied
    exact ⟨by simpa using free, rfl, rfl, rfl⟩

theorem lockRowAndReply_inv {ref : Ref} {given : Answer statement}
    (replied : lockRowAndReply world others ref given memory connection =
      some (answer, memory', connection')) :
    lockAndReply world others [ref] given memory connection =
      some (answer, memory', connection') := by
  unfold lockRowAndReply at replied
  split at replied
  · cases replied
  · exact replied

theorem executeAndReply_inv {write : Write} {given : Answer statement}
    (replied : executeAndReply world others write given memory connection =
      some (answer, memory', connection')) :
    (∀ ref ∈ write.footprint, heldByOthers others ref = false) ∧
      ((∃ error, write.check (connection.view world.db) = .error error ∧
          answer = .error error ∧ memory' = memory ∧ connection' = connection) ∨
        write.check (connection.view world.db) = .ok () ∧ answer = .ok given ∧
          memory' = memory.flushed write ∧ connection' = connection.write world write) := by
  unfold executeAndReply at replied
  split at replied
  · cases replied
  · rename_i free
    simp only [not_or] at free
    refine ⟨by simpa using free.1, ?_⟩
    split at replied
    · rename_i error failed
      simp only [Option.some.injEq, Prod.mk.injEq] at replied
      obtain ⟨rfl, rfl, rfl⟩ := replied
      exact .inl ⟨error, failed, rfl, rfl, rfl⟩
    · rename_i valid
      simp only [Option.some.injEq, Prod.mk.injEq] at replied
      obtain ⟨rfl, rfl, rfl⟩ := replied
      exact .inr ⟨valid, rfl, rfl, rfl⟩

theorem Stepped.of_reply {given : Answer statement} {loaded : Memory}
    (replied : reply given loaded connection = some (answer, memory', connection'))
    (pending : loaded.pending = memory.pending) :
    Stepped statement world others memory memory' connection connection' := by
  obtain ⟨_, rfl, rfl⟩ := reply_inv replied
  exact ⟨.same rfl, .inl pending, rfl⟩

theorem Stepped.of_lock {refs : List Ref} {given : Answer statement} {loaded : Memory}
    (replied : lockAndReply world others refs given loaded connection =
      some (answer, memory', connection'))
    (pending : loaded.pending = memory.pending) :
    Stepped statement world others memory memory' connection connection' := by
  obtain ⟨free, _, rfl, rfl⟩ := lockAndReply_inv replied
  exact ⟨.locks refs free rfl, .inl pending, rfl⟩

theorem Stepped.of_execute {write : Write} {given : Answer statement}
    (replied : executeAndReply world others write given memory connection =
      some (answer, memory', connection'))
    (may : statement.MayWrite write) :
    Stepped statement world others memory memory' connection connection' := by
  obtain ⟨free, ⟨_, _, _, rfl, rfl⟩ | ⟨valid, _, rfl, rfl⟩⟩ := executeAndReply_inv replied
  · exact ⟨.same rfl, .inl rfl, rfl⟩
  · exact ⟨.writes write may free valid rfl, .inl (by cases write <;> rfl), rfl⟩

theorem perform_stepped
    (performed : perform world env others memory connection statement =
      some (answer, memory', connection')) :
    Stepped statement world others memory memory' connection connection' := by
  cases statement with
  | getDriver id =>
      delta perform at performed
      dsimp only at performed
      split at performed <;> exact .of_reply performed rfl
  | driverForUpdate id companyId =>
      delta perform at performed
      dsimp only at performed
      split at performed
      · exact .of_reply performed rfl
      · exact .of_lock (lockRowAndReply_inv performed) rfl
  | vehicleForUpdate id =>
      delta perform at performed
      dsimp only at performed
      split at performed
      · exact .of_reply performed rfl
      · exact .of_lock (lockRowAndReply_inv performed) rfl
  | deadlineForUpdate id companyId =>
      delta perform at performed
      dsimp only at performed
      split at performed
      · exact .of_reply performed rfl
      · exact .of_lock (lockRowAndReply_inv performed) rfl
  | openDeadline subject kind =>
      delta perform at performed
      dsimp only at performed
      split at performed <;> exact .of_reply performed rfl
  | getVehicle id =>
      delta perform at performed
      dsimp only at performed
      split at performed <;> exact .of_reply performed rfl
  | getCompany id =>
      delta perform at performed
      dsimp only at performed
      split at performed <;> exact .of_reply performed rfl
  | openCasesForUpdate =>
      delta perform at performed
      dsimp only at performed
      exact .of_lock performed rfl
  | dueOutbox now limit =>
      delta perform at performed
      dsimp only at performed
      exact .of_lock performed rfl
  | execute write =>
      delta perform at performed
      dsimp only at performed
      exact .of_execute performed rfl
  | deleteOutboxBefore cutoff =>
      delta perform at performed
      dsimp only at performed
      exact .of_execute performed ⟨_, rfl⟩
  | deleteOutboxOf companyId =>
      delta perform at performed
      dsimp only at performed
      exact .of_execute performed ⟨_, rfl⟩
  | revokeSessionsOf companyId now =>
      delta perform at performed
      dsimp only at performed
      exact .of_execute performed ⟨_, rfl⟩
  | acceptInvitationsOf companyId now =>
      delta perform at performed
      dsimp only at performed
      exact .of_execute performed ⟨_, rfl⟩
  | begin =>
      delta perform at performed
      dsimp only at performed
      obtain ⟨_, rfl, rfl⟩ := reply_inv performed
      exact ⟨.same rfl, .inl rfl, rfl⟩
  | «savepoint» =>
      delta perform at performed
      dsimp only at performed
      obtain ⟨_, rfl, rfl⟩ := reply_inv performed
      exact ⟨.same rfl, .inl rfl, rfl⟩
  | rollbackTo =>
      delta perform at performed
      dsimp only at performed
      obtain ⟨_, rfl, rfl⟩ := reply_inv performed
      exact ⟨.cuts rfl _ rfl, .inr ⟨rfl, rfl⟩, rfl⟩
  | release =>
      delta perform at performed
      dsimp only at performed
      obtain ⟨_, rfl, rfl⟩ := reply_inv performed
      exact ⟨.same rfl, .inl rfl, rfl⟩
  | deliver message =>
      delta perform at performed
      dsimp only at performed
      split at performed
      · exact .of_reply performed rfl
      · exact .of_reply performed rfl
      · simp only [Option.some.injEq, Prod.mk.injEq] at performed
        obtain ⟨_, rfl, rfl⟩ := performed
        exact ⟨.same rfl, .inl rfl, rfl⟩
  | _ =>
      delta perform at performed
      dsimp only at performed
      exact .of_reply performed rfl

theorem lockAndReply_alone {refs : List Ref} {given : Answer statement} :
    (lockAndReply world [] refs given memory connection).isSome = true := by
  simp [lockAndReply, heldByOthers]

theorem lockRowAndReply_alone {ref : Ref} {given : Answer statement} :
    (lockRowAndReply world [] ref given memory connection).isSome = true := by
  rw [lockRowAndReply, if_neg (by simp [sharedByOthers])]
  exact lockAndReply_alone

theorem executeAndReply_alone {write : Write} {given : Answer statement} :
    (executeAndReply world [] write given memory connection).isSome = true := by
  rw [executeAndReply, if_neg (by simp [heldByOthers, lockedByOthers, sharedByOthers])]
  split <;> rfl

/-- With no other connection open, no statement waits. -/
theorem perform_alone : (perform world env [] memory connection statement).isSome = true := by
  cases statement <;> delta perform <;> dsimp only
  all_goals
    try split
    all_goals
      first
      | rfl
      | exact lockAndReply_alone
      | exact lockRowAndReply_alone
      | exact executeAndReply_alone

end Statements

/-! ### The laws of isolation -/

section Laws

variable {Request Result : Type}
variable (program : Request → Library.Program Memory Statement Answer Error Result)
variable (tenant : Request → Option Uuid)

/-- PostgreSQL serving requests, each in a session of its own. -/
def serving : Engine World Memory Connection Statement Answer Env Error Ref Request Result where
  toServer := postgres
  program := program
  connect world request := (.empty, ⟨tenant request, world.clock, [], none⟩)
  held connection := held Db connection.journal
  commit := World.committed

theorem heldByOthers_eq_false {others : List Connection} {ref : Ref} :
    heldByOthers others ref = false ↔
      ∀ other ∈ others, ref ∉ (serving program tenant).heldRefs other := by
  simp [heldByOthers, Connection.holds, Engine.heldRefs, serving]

theorem serving_locking : Locking (serving program tenant) World.db Connection.journal where
  advance _ _ := rfl
  commit _ _ := rfl
  connect _ _ := rfl
  held _ := rfl
  perform := by
    intro world env others memory connection statement answer memory' connection' performed
    have isFree : ∀ {ref : Ref}, heldByOthers others ref = false →
        ¬ ∃ other ∈ others, ref ∈ (serving program tenant).heldRefs other := by
      rintro ref free ⟨other, isOther, taken⟩
      exact (heldByOthers_eq_false program tenant).mp free other isOther taken
    cases (perform_stepped performed).grows with
    | same journal => exact .same journal
    | locks refs free journal =>
        exact .locks refs (fun ref inside => isFree (free ref inside)) journal
    | writes write _ free valid journal =>
        exact .writes write (fun ref inside => isFree (free ref inside)) valid journal
    | cuts _ length journal => exact .cuts length journal

theorem kept_keeps : Journal.Keeps Kept where
  refl := Kept.refl
  trans := Kept.trans
  frame := Kept.frame
  apply := Kept.apply
  valid := Kept.valid

/-- Locks are stamped, exclusive and enough to keep uncommitted work ready. -/
theorem serving_laws : Laws (serving program tenant) readCommitted :=
  (serving_locking program tenant).laws kept_keeps

end Laws

/-! ### Sent statements -/

abbrev Session := Transaction World Memory Connection Statement Env

abbrev Sent := Entry World Memory Connection Statement Env

/-- The database as the sender of a statement saw it. -/
def Sent.db (entry : Sent) : Db :=
  entry.connection.view entry.world.db

/-- `statement` was sent by the session, as `entry`. -/
structure Session.Asked (session : Session) (statement : Statement) (entry : Sent) : Prop where
  memory : entry.memory = session.memory
  connection : entry.connection = session.connection
  statement : entry.statement = statement
  ticks : entry.world.clock < entry.env.now

theorem sends_iff {session after : Session} {statement : Statement}
    {answer : Except Error (Answer statement)} :
    postgres.Sends statement session answer after ↔
      ∃ entry memory connection, session.Asked statement entry ∧
        perform entry.world entry.env entry.others session.memory session.connection statement =
          some (answer, memory, connection) ∧
        after = ⟨memory, connection, session.trace ++ [entry]⟩ := by
  constructor
  · rintro ⟨world, env, others, memory, connection, possible, performed, rfl⟩
    exact ⟨⟨world, others, session.memory, session.connection, statement, env⟩, memory,
      connection, ⟨rfl, rfl, rfl, of_decide_eq_true possible⟩, performed, rfl⟩
  · rintro ⟨⟨world, others, memory, connection, asked, env⟩, memory', connection',
      ⟨rfl, rfl, rfl, ticks⟩, performed, rfl⟩
    exact ⟨world, env, others, memory', connection', decide_eq_true ticks, performed, rfl⟩

end Fristenwaechter
