import Fristenwaechter.Statements

/-!
Owns the rules of the unit of work: where a flush, an autoflushing SELECT, an
assignment and a savepoint end. `Executed` is the successful execution of a list of
writes; a flush either executes everything that was pending or fails at one write
after executing those before it.
-/

namespace Fristenwaechter

open Library (Program Server Journal)
open Library.Program (memory change forEach)

variable {session after : Session} {Result Final : Type}

theorem ends_then {first : Work Result} {next : Result → Work Final}
    {outcome : Except Error Final} :
    postgres.Ends (first >>= next) session outcome after ↔
      (∃ value middle, postgres.Ends first session (.ok value) middle ∧
        postgres.Ends (next value) middle outcome after) ∨
      ∃ error, outcome = .error error ∧ postgres.Ends first session (.error error) after :=
  Server.ends_bind

theorem ends_pure {value : Result} {outcome : Except Error Result} :
    postgres.Ends (pure value : Work Result) session outcome after ↔
      outcome = .ok value ∧ after = session :=
  Iff.rfl

theorem ends_assoc {Last : Type} {first : Work Result} {next : Result → Work Final}
    {last : Final → Work Last} {outcome : Except Error Last}
    (ended : postgres.Ends ((first >>= next) >>= last) session outcome after) :
    postgres.Ends (first >>= fun value => next value >>= last) session outcome after :=
  Library.Program.bind_assoc first next last ▸ ended

theorem ends_tryCatch {program : Work Result} {handler : Error → Work Result}
    {outcome : Except Error Result} :
    postgres.Ends (tryCatch program handler) session outcome after ↔
      (∃ value, outcome = .ok value ∧ postgres.Ends program session (.ok value) after) ∨
      ∃ error middle, postgres.Ends program session (.error error) middle ∧
        postgres.Ends (handler error) middle outcome after :=
  Server.ends_handle

theorem ends_emit {statement : Statement} {outcome : Except Error (Answer statement)} :
    postgres.Ends (emit statement) session outcome after ↔
      postgres.Sends statement session outcome after :=
  Server.ends_send

/-! ### Pending changes -/

theorem ends_add {write : Write} {outcome : Except Error Unit} :
    postgres.Ends (add write) session outcome after ↔
      outcome = .ok () ∧ after = session.withPending (session.memory.pending ++ [write]) :=
  Iff.rfl

theorem ends_addAll {writes : List Write} {outcome : Except Error Unit} :
    postgres.Ends (addAll writes) session outcome after ↔
      outcome = .ok () ∧ after = session.withPending (session.memory.pending ++ writes) :=
  Iff.rfl

theorem withPending_self (clean : session.memory.pending = []) :
    session.withPending [] = session := by
  obtain ⟨⟨drivers, deadlines, vehicles, companies, pending⟩, connection, trace⟩ := session
  cases clean
  rfl

@[simp] theorem unitOfWork_nil : unitOfWork [] = [] :=
  rfl

@[simp] theorem unitOfWork_singleton (write : Write) : unitOfWork [write] = [write] :=
  rfl

/-! ### Flushes -/

/-- All the writes are executed, each where its predecessors led. -/
def Executed : List Write → Session → Session → Prop
  | [], session, after => after = session
  | write :: rest, session, after =>
      ∃ entry, session.Asked (.execute write) entry ∧ write.check entry.db = .ok () ∧
        Executed rest (session.wrote entry write) after

/-- One of the writes is refused after those before it have been executed. -/
def Refused (writes : List Write) (session : Session) (error : Error) (after : Session) : Prop :=
  ∃ done write rest middle entry, writes = done ++ write :: rest ∧
    Executed done session middle ∧ middle.Asked (.execute write) entry ∧
    write.check entry.db = .error error ∧ after = middle.saw entry

theorem executeAll_ends {writes : List Write} {outcome : Except Error Unit}
    (ended : postgres.Ends (executeAll writes) session outcome after) :
    (outcome = .ok () ∧ Executed writes session after) ∨
      ∃ error, outcome = .error error ∧ Refused writes session error after := by
  induction writes generalizing session with
  | nil =>
      obtain ⟨rfl, rfl⟩ := ended
      exact .inl ⟨rfl, rfl⟩
  | cons write rest inductionHypothesis =>
      rcases Server.ends_bind.mp ended with ⟨⟨⟩, middle, first, second⟩ | ⟨error, rfl, first⟩
      · obtain ⟨entry, asked, ⟨_, _, same, _⟩ | ⟨valid, _, rfl⟩⟩ :=
          sends_execute (ends_emit.mp first)
        · cases same
        rcases inductionHypothesis second with ⟨rfl, executed⟩ | ⟨error, rfl, refused⟩
        · exact .inl ⟨rfl, entry, asked, valid, executed⟩
        · obtain ⟨done, failing, later, last, failed, rfl, executed, rest⟩ := refused
          exact .inr ⟨error, rfl, write :: done, failing, later, last, failed, rfl,
            ⟨entry, asked, valid, executed⟩, rest⟩
      · obtain ⟨entry, asked, ⟨_, failed, same, rfl⟩ | ⟨_, same, _⟩⟩ :=
          sends_execute (ends_emit.mp first)
        · cases same
          exact .inr ⟨_, rfl, [], write, rest, session, entry, rfl, rfl, asked, failed, rfl⟩
        · cases same

theorem flush_ends {outcome : Except Error Unit}
    (ended : postgres.Ends flush session outcome after) :
    (outcome = .ok () ∧
        Executed (unitOfWork session.memory.pending) (session.withPending []) after) ∨
      ∃ error, outcome = .error error ∧
        Refused (unitOfWork session.memory.pending) (session.withPending []) error after :=
  executeAll_ends ended

theorem flush_ends_clean (clean : session.memory.pending = []) {outcome : Except Error Unit} :
    postgres.Ends flush session outcome after ↔ outcome = .ok () ∧ after = session := by
  change postgres.Ends (executeAll (unitOfWork session.memory.pending)) (session.withPending [])
    outcome after ↔ _
  rw [clean, withPending_self clean]
  rfl

theorem select_ends {statement : Statement} {outcome : Except Error (Answer statement)}
    (ended : postgres.Ends (select statement) session outcome after) :
    (∃ middle, Executed (unitOfWork session.memory.pending) (session.withPending []) middle ∧
        postgres.Sends statement middle outcome after) ∨
      ∃ error, outcome = .error error ∧
        Refused (unitOfWork session.memory.pending) (session.withPending []) error after := by
  rcases ends_then.mp ended with ⟨⟨⟩, middle, first, second⟩ | ⟨error, rfl, first⟩
  · rcases flush_ends first with ⟨_, executed⟩ | ⟨_, same, _⟩
    · exact .inl ⟨middle, executed, ends_emit.mp second⟩
    · cases same
  · rcases flush_ends first with ⟨same, _⟩ | ⟨_, same, refused⟩
    · cases same
    · cases same
      exact .inr ⟨_, rfl, refused⟩

theorem select_ends_clean (clean : session.memory.pending = []) {statement : Statement}
    {outcome : Except Error (Answer statement)} :
    postgres.Ends (select statement) session outcome after ↔
      postgres.Sends statement session outcome after := by
  unfold select
  simp [ends_then, flush_ends_clean clean, ends_emit]

/-- What executed writes do to the session: they are journalled, nothing else of the
connection changes, and the pending changes stay. -/
theorem Executed.writes {writes : List Write} (executed : Executed writes session after) :
    after.writes = session.writes ++ writes := by
  induction writes generalizing session with
  | nil =>
      cases executed
      simp
  | cons write rest inductionHypothesis =>
      obtain ⟨entry, _, _, remaining⟩ := executed
      simp [inductionHypothesis remaining]

theorem Executed.pending {writes : List Write} (executed : Executed writes session after) :
    after.memory.pending = session.memory.pending := by
  induction writes generalizing session with
  | nil =>
      cases executed
      rfl
  | cons write rest inductionHypothesis =>
      obtain ⟨entry, _, _, remaining⟩ := executed
      simp [inductionHypothesis remaining]

/-- A session that has only grown: nothing was rolled back. -/
structure Grown (session after : Session) : Prop where
  journal : session.connection.journal <+: after.connection.journal
  trace : session.trace <+: after.trace
  tenant : after.connection.tenant = session.connection.tenant
  startedAt : after.connection.startedAt = session.connection.startedAt
  savepoint : after.connection.savepoint = session.connection.savepoint

theorem Grown.refl (session : Session) : Grown session session :=
  ⟨List.prefix_rfl, List.prefix_rfl, rfl, rfl, rfl⟩

theorem Grown.trans {first second third : Session} (one : Grown first second)
    (two : Grown second third) : Grown first third where
  journal := one.journal.trans two.journal
  trace := one.trace.trans two.trace
  tenant := two.tenant.trans one.tenant
  startedAt := two.startedAt.trans one.startedAt
  savepoint := two.savepoint.trans one.savepoint

theorem Grown.saw (session : Session) (entry : Sent) : Grown session (session.saw entry) :=
  ⟨List.prefix_rfl, List.prefix_append _ _, rfl, rfl, rfl⟩

theorem Grown.sawAll (session : Session) (entries : List Sent) :
    Grown session (session.sawAll entries) :=
  ⟨List.prefix_rfl, List.prefix_append _ _, rfl, rfl, rfl⟩

theorem Grown.locked (session : Session) (entry : Sent) (refs : List Ref) :
    Grown session (session.locked entry refs) :=
  ⟨List.prefix_append _ _, List.prefix_append _ _, rfl, rfl, rfl⟩

theorem Grown.wrote (session : Session) (entry : Sent) (write : Write) :
    Grown session (session.wrote entry write) :=
  ⟨List.prefix_append _ _, List.prefix_append _ _, rfl, rfl, rfl⟩

theorem Grown.withMemory (session : Session) (memory : Memory) :
    Grown session (session.withMemory memory) :=
  ⟨List.prefix_rfl, List.prefix_rfl, rfl, rfl, rfl⟩

theorem Executed.grown {writes : List Write} (executed : Executed writes session after) :
    Grown session after := by
  induction writes generalizing session with
  | nil =>
      cases executed
      exact .refl _
  | cons write rest inductionHypothesis =>
      obtain ⟨entry, _, _, remaining⟩ := executed
      exact (Grown.wrote session entry write).trans (inductionHypothesis remaining)

theorem Refused.grown {writes : List Write} {error : Error}
    (refused : Refused writes session error after) : Grown session after := by
  obtain ⟨done, write, rest, middle, entry, _, executed, _, _, rfl⟩ := refused
  exact executed.grown.trans (.saw middle entry)

/-! ### Steps

A step that cannot fail leads from a sequence to its rest. -/

section Steps

variable {outcome : Except Error Final}

theorem step_add {write : Write} {next : Unit → Work Final}
    (ended : postgres.Ends (add write >>= next) session outcome after) :
    postgres.Ends (next ()) (session.withPending (session.memory.pending ++ [write])) outcome
      after :=
  ended

theorem step_addAll {writes : List Write} {next : Unit → Work Final}
    (ended : postgres.Ends (addAll writes >>= next) session outcome after) :
    postgres.Ends (next ()) (session.withPending (session.memory.pending ++ writes)) outcome
      after :=
  ended

theorem step_pure {value : Result} {next : Result → Work Final}
    (ended : postgres.Ends ((pure value : Work Result) >>= next) session outcome after) :
    postgres.Ends (next value) session outcome after :=
  ended

private theorem step_emit {statement : Statement} {given : Sent → Answer statement}
    (answers : ∀ {answer middle}, postgres.Sends statement session answer middle →
      ∃ entry, session.Asked statement entry ∧ answer = .ok (given entry) ∧
        middle = session.saw entry)
    {next : Answer statement → Work Final}
    (ended : postgres.Ends (emit statement >>= next) session outcome after) :
    ∃ entry, session.Asked statement entry ∧
      postgres.Ends (next (given entry)) (session.saw entry) outcome after := by
  rcases ends_then.mp ended with ⟨value, middle, first, second⟩ | ⟨error, _, first⟩
  · obtain ⟨entry, asked, same, rfl⟩ := answers (ends_emit.mp first)
    cases same
    exact ⟨entry, asked, second⟩
  · obtain ⟨_, _, same, _⟩ := answers (ends_emit.mp first)
    cases same

theorem step_now {next : Instant → Work Final}
    (ended : postgres.Ends (nowBerlin >>= next) session outcome after) :
    ∃ entry, session.Asked .now entry ∧
      postgres.Ends (next entry.env.now) (session.saw entry) outcome after :=
  step_emit sends_now ended

theorem step_uuid4 {next : Uuid → Work Final}
    (ended : postgres.Ends (emit .uuid4 >>= next) session outcome after) :
    ∃ entry, session.Asked .uuid4 entry ∧
      postgres.Ends (next entry.env.fresh) (session.saw entry) outcome after :=
  step_emit sends_uuid4 ended

theorem step_serverDefaults {next : Uuid × Instant → Work Final}
    (ended : postgres.Ends (emit .serverDefaults >>= next) session outcome after) :
    ∃ entry, session.Asked .serverDefaults entry ∧
      postgres.Ends (next (entry.env.fresh, session.connection.startedAt)) (session.saw entry)
        outcome after :=
  step_emit (fun sent => sends_serverDefaults sent) ended

section Clean

variable (clean : session.memory.pending = [])

include clean

private theorem step_select {statement : Statement} {given : Sent → Answer statement}
    (answers : ∀ {answer middle}, postgres.Sends statement session answer middle →
      ∃ entry, session.Asked statement entry ∧ answer = .ok (given entry) ∧
        middle = session.saw entry)
    {next : Answer statement → Work Final}
    (ended : postgres.Ends (select statement >>= next) session outcome after) :
    ∃ entry, session.Asked statement entry ∧
      postgres.Ends (next (given entry)) (session.saw entry) outcome after := by
  refine step_emit answers (ends_then.mpr ?_)
  simpa only [select_ends_clean clean, ends_emit] using ends_then.mp ended

theorem step_openCase {driverId : Uuid} {next : Option EscalationCase → Work Final}
    (ended : postgres.Ends (select (.openCase driverId) >>= next) session outcome after) :
    ∃ entry, session.Asked (.openCase driverId) entry ∧
      postgres.Ends (next (entry.openCase driverId)) (session.saw entry) outcome after :=
  step_select clean sends_openCase ended

theorem step_latestHash {subject : Subject} {next : Option Str → Work Final}
    (ended : postgres.Ends (select (.latestHash subject) >>= next) session outcome after) :
    ∃ entry, session.Asked (.latestHash subject) entry ∧
      postgres.Ends (next ((entry.tip subject).map ComplianceCheckLog.entryHash))
        (session.saw entry) outcome after :=
  step_select clean (fun sent => sends_latestHash sent) ended

theorem step_notifiedUsers {companyId : Uuid} {next : List AccountUser → Work Final}
    (ended : postgres.Ends (select (.notifiedUsers companyId) >>= next) session outcome after) :
    ∃ entry, session.Asked (.notifiedUsers companyId) entry ∧
      postgres.Ends (next (entry.notifiedUsers companyId)) (session.saw entry) outcome after :=
  step_select clean (fun sent => sends_notifiedUsers sent) ended

omit clean in
theorem step_begin {next : Unit → Work Final}
    (ended : postgres.Ends (emit .begin >>= next) session outcome after) :
    ∃ entry, session.Asked .begin entry ∧
      postgres.Ends (next ()) (session.begun entry) outcome after := by
  rcases ends_then.mp ended with ⟨⟨⟩, middle, first, second⟩ | ⟨error, _, first⟩
  · obtain ⟨entry, asked, _, rfl⟩ := sends_begin (ends_emit.mp first)
    exact ⟨entry, asked, second⟩
  · obtain ⟨_, _, same, _⟩ := sends_begin (ends_emit.mp first)
    cases same

theorem step_openCasesForUpdate {next : List EscalationCase → Work Final}
    (ended : postgres.Ends (select .openCasesForUpdate >>= next) session outcome after) :
    ∃ entry, session.Asked .openCasesForUpdate entry ∧
      postgres.Ends (next entry.claimableCases)
        (session.locked entry (entry.claimableCases.map fun row => .case row.id)) outcome
        after := by
  rcases ends_then.mp ended with ⟨cases, middle, first, second⟩ | ⟨error, _, first⟩
  · obtain ⟨entry, asked, same, rfl⟩ :=
      sends_openCasesForUpdate ((select_ends_clean clean).mp first)
    cases same
    exact ⟨entry, asked, second⟩
  · obtain ⟨_, _, same, _⟩ := sends_openCasesForUpdate ((select_ends_clean clean).mp first)
    cases same

theorem step_dueOutbox {now : Instant} {limit : Nat} {next : List OutboxMessage → Work Final}
    (ended : postgres.Ends (select (.dueOutbox now limit) >>= next) session outcome after) :
    ∃ entry, session.Asked (.dueOutbox now limit) entry ∧
      postgres.Ends (next (entry.dueMessages now limit))
        (session.locked entry ((entry.dueMessages now limit).map fun row => .outbox row.id))
        outcome after := by
  rcases ends_then.mp ended with ⟨rows, middle, first, second⟩ | ⟨error, _, first⟩
  · obtain ⟨entry, asked, same, rfl⟩ :=
      sends_dueOutbox ((select_ends_clean clean).mp first)
    cases same
    exact ⟨entry, asked, second⟩
  · obtain ⟨_, _, same, _⟩ := sends_dueOutbox ((select_ends_clean clean).mp first)
    cases same

theorem step_driverForUpdate {id : Uuid} {companyId : Option Uuid}
    {next : Option Driver → Work Final}
    (ended : postgres.Ends (select (.driverForUpdate id companyId) >>= next) session outcome
      after) :
    ∃ entry, session.Asked (.driverForUpdate id companyId) entry ∧
      ((entry.driver id companyId = none ∧
          postgres.Ends (next none) (session.saw entry) outcome after) ∨
        ∃ row, entry.driver id companyId = some row ∧
          postgres.Ends (next (some (Memory.instanceOf session.memory.drivers row)))
            ((session.locked entry [.driver id]).withMemory (session.memory.loadDriver row))
            outcome after) := by
  rcases ends_then.mp ended with ⟨value, middle, first, second⟩ | ⟨error, _, first⟩
  · obtain ⟨entry, asked, ⟨missing, same, rfl⟩ | ⟨row, found, same, rfl⟩⟩ :=
      sends_driverForUpdate ((select_ends_clean clean).mp first)
    · cases same
      exact ⟨entry, asked, .inl ⟨missing, second⟩⟩
    · cases same
      exact ⟨entry, asked, .inr ⟨row, found, second⟩⟩
  · obtain ⟨_, _, ⟨_, same, _⟩ | ⟨_, _, same, _⟩⟩ :=
      sends_driverForUpdate ((select_ends_clean clean).mp first)
    · cases same
    · cases same

theorem step_vehicleForUpdate {id : Uuid} {next : Option Vehicle → Work Final}
    (ended : postgres.Ends (select (.vehicleForUpdate id) >>= next) session outcome after) :
    ∃ entry, session.Asked (.vehicleForUpdate id) entry ∧
      ((entry.vehicle id = none ∧
          postgres.Ends (next none) (session.saw entry) outcome after) ∨
        ∃ row, entry.vehicle id = some row ∧
          postgres.Ends (next (some (Memory.instanceOf session.memory.vehicles row)))
            ((session.locked entry [.vehicle id]).withMemory (session.memory.loadVehicle row))
            outcome after) := by
  rcases ends_then.mp ended with ⟨value, middle, first, second⟩ | ⟨error, _, first⟩
  · obtain ⟨entry, asked, ⟨missing, same, rfl⟩ | ⟨row, found, same, rfl⟩⟩ :=
      sends_vehicleForUpdate ((select_ends_clean clean).mp first)
    · cases same
      exact ⟨entry, asked, .inl ⟨missing, second⟩⟩
    · cases same
      exact ⟨entry, asked, .inr ⟨row, found, second⟩⟩
  · obtain ⟨_, _, ⟨_, same, _⟩ | ⟨_, _, same, _⟩⟩ :=
      sends_vehicleForUpdate ((select_ends_clean clean).mp first)
    · cases same
    · cases same

theorem step_deadlineForUpdate {id companyId : Uuid} {next : Option Deadline → Work Final}
    (ended : postgres.Ends (select (.deadlineForUpdate id companyId) >>= next) session outcome
      after) :
    ∃ entry, session.Asked (.deadlineForUpdate id companyId) entry ∧
      ((entry.deadline id companyId = none ∧
          postgres.Ends (next none) (session.saw entry) outcome after) ∨
        ∃ row, entry.deadline id companyId = some row ∧
          postgres.Ends (next (some (Memory.instanceOf session.memory.deadlines row)))
            ((session.locked entry [.deadline id]).withMemory (session.memory.loadDeadline row))
            outcome after) := by
  rcases ends_then.mp ended with ⟨value, middle, first, second⟩ | ⟨error, _, first⟩
  · obtain ⟨entry, asked, ⟨missing, same, rfl⟩ | ⟨row, found, same, rfl⟩⟩ :=
      sends_deadlineForUpdate ((select_ends_clean clean).mp first)
    · cases same
      exact ⟨entry, asked, .inl ⟨missing, second⟩⟩
    · cases same
      exact ⟨entry, asked, .inr ⟨row, found, second⟩⟩
  · obtain ⟨_, _, ⟨_, same, _⟩ | ⟨_, _, same, _⟩⟩ :=
      sends_deadlineForUpdate ((select_ends_clean clean).mp first)
    · cases same
    · cases same

theorem step_openDeadline {subject : Subject} {kind : DeadlineKind}
    {next : Option Deadline → Work Final}
    (ended : postgres.Ends (select (.openDeadline subject kind) >>= next) session outcome
      after) :
    ∃ entry, session.Asked (.openDeadline subject kind) entry ∧
      ((entry.openDeadlinesOf subject kind = [] ∧
          postgres.Ends (next none) (session.saw entry) outcome after) ∨
        ∃ row ∈ entry.openDeadlinesOf subject kind,
          postgres.Ends (next (some (Memory.instanceOf session.memory.deadlines row)))
            ((session.saw entry).withMemory (session.memory.loadDeadline row)) outcome
            after) := by
  rcases ends_then.mp ended with ⟨value, middle, first, second⟩ | ⟨error, _, first⟩
  · obtain ⟨entry, asked, ⟨missing, same, rfl⟩ | ⟨row, found, same, rfl⟩⟩ :=
      sends_openDeadline ((select_ends_clean clean).mp first)
    · cases same
      exact ⟨entry, asked, .inl ⟨missing, second⟩⟩
    · cases same
      exact ⟨entry, asked, .inr ⟨row, found, second⟩⟩
  · obtain ⟨_, _, ⟨_, same, _⟩ | ⟨_, _, same, _⟩⟩ :=
      sends_openDeadline ((select_ends_clean clean).mp first)
    · cases same
    · cases same

omit clean in
theorem getDriver_ends {id : Uuid} {answer : Except Error (Option Driver)}
    (unloaded : session.memory.drivers.find? (fun copy => copy.id = id) = none) :
    postgres.Ends (getDriver id) session answer after ↔
      postgres.Ends (select (.getDriver id)) session answer after := by
  unfold getDriver
  simp only [ends_then, Server.ends_memory, Except.ok.injEq, reduceCtorEq, false_and, and_false,
    exists_false, or_false, ↓existsAndEq, true_and, unloaded]
  exact Iff.rfl

theorem step_getDriver {id : Uuid} {next : Option Driver → Work Final}
    (unloaded : session.memory.drivers.find? (fun copy => copy.id = id) = none)
    (ended : postgres.Ends (getDriver id >>= next) session outcome after) :
    ∃ entry, session.Asked (.getDriver id) entry ∧
      ((entry.driver id none = none ∧
          postgres.Ends (next none) (session.saw entry) outcome after) ∨
        ∃ row, entry.driver id none = some row ∧
          postgres.Ends (next (some (Memory.instanceOf session.memory.drivers row)))
            ((session.saw entry).withMemory (session.memory.loadDriver row)) outcome after) := by
  rcases ends_then.mp ended with ⟨value, middle, first, second⟩ | ⟨error, _, first⟩
  · obtain ⟨entry, sent, ⟨missing, same, rfl⟩ | ⟨row, found, same, rfl⟩⟩ :=
      sends_getDriver ((select_ends_clean clean).mp ((getDriver_ends unloaded).mp first))
    · cases same
      exact ⟨entry, sent, .inl ⟨missing, second⟩⟩
    · cases same
      exact ⟨entry, sent, .inr ⟨row, found, second⟩⟩
  · obtain ⟨_, _, ⟨_, same, _⟩ | ⟨_, _, same, _⟩⟩ :=
      sends_getDriver ((select_ends_clean clean).mp ((getDriver_ends unloaded).mp first))
    · cases same
    · cases same

end Clean

/-- A flush in a sequence: the rest runs where all pending writes were executed, or one
of them was refused. -/
theorem step_flush {next : Unit → Work Final}
    (ended : postgres.Ends (flush >>= next) session outcome after) :
    (∃ middle, Executed (unitOfWork session.memory.pending) (session.withPending []) middle ∧
        postgres.Ends (next ()) middle outcome after) ∨
      ∃ error, outcome = .error error ∧
        Refused (unitOfWork session.memory.pending) (session.withPending []) error after := by
  rcases ends_then.mp ended with ⟨⟨⟩, middle, first, second⟩ | ⟨error, rfl, first⟩
  · rcases flush_ends first with ⟨_, executed⟩ | ⟨_, same, _⟩
    · exact .inl ⟨middle, executed, second⟩
    · cases same
  · rcases flush_ends first with ⟨same, _⟩ | ⟨_, same, refused⟩
    · cases same
    · cases same
      exact .inr ⟨_, rfl, refused⟩

theorem step_flush_of (clean : session.memory.pending = []) {writes : List Write}
    {next : Unit → Work Final}
    (ended : postgres.Ends (flush >>= next) (session.withPending writes) outcome after) :
    (∃ middle, Executed (unitOfWork writes) session middle ∧
        postgres.Ends (next ()) middle outcome after) ∨
      ∃ error, outcome = .error error ∧ Refused (unitOfWork writes) session error after := by
  have steps := step_flush ended
  rwa [Session.withPending_withPending, withPending_self clean,
    Session.withPending_pending] at steps

theorem step_autoflush (clean : session.memory.pending = []) {writes : List Write}
    {statement : Statement} {next : Answer statement → Work Final}
    (ended : postgres.Ends (select statement >>= next) (session.withPending writes) outcome
      after) :
    (∃ middle, Executed (unitOfWork writes) session middle ∧ middle.memory.pending = [] ∧
        postgres.Ends (select statement >>= next) middle outcome after) ∨
      ∃ error, outcome = .error error ∧ Refused (unitOfWork writes) session error after := by
  have nested : postgres.Ends (flush >>= fun _ => emit statement >>= next)
      (session.withPending writes) outcome after := ends_assoc ended
  rcases step_flush_of clean nested with ⟨middle, executed, rest⟩ | refused
  · have cleanAfter : middle.memory.pending = [] := executed.pending.trans clean
    refine .inl ⟨middle, executed, cleanAfter, ends_then.mpr ?_⟩
    simpa only [select_ends_clean cleanAfter, ends_emit] using ends_then.mp rest
  · exact .inr refused

theorem step_flush_one (clean : session.memory.pending = []) {write : Write}
    {next : Unit → Work Final}
    (ended : postgres.Ends (flush >>= next) (session.withPending [write]) outcome after) :
    ∃ entry, session.Asked (.execute write) entry ∧
      ((write.check entry.db = .ok () ∧
          postgres.Ends (next ()) (session.wrote entry write) outcome after) ∨
        ∃ error, write.check entry.db = .error error ∧ outcome = .error error ∧
          after = session.saw entry) := by
  rcases step_flush_of clean ended with ⟨middle, executed, rest⟩ | ⟨error, rfl, refused⟩
  · obtain ⟨entry, asked, valid, rfl⟩ := executed
    exact ⟨entry, asked, .inl ⟨valid, rest⟩⟩
  · obtain ⟨done, failing, later, middle, entry, whole, executed, asked, failed, rfl⟩ := refused
    rw [unitOfWork_singleton, eq_comm, List.append_eq_singleton_iff] at whole
    rcases whole with ⟨rfl, same⟩ | ⟨_, none⟩
    · cases same
      cases executed
      exact ⟨entry, asked, .inr ⟨error, failed, rfl, rfl⟩⟩
    · cases none

theorem step_orThrow {error : Error} {value : Option Result} {next : Result → Work Final}
    (ended : postgres.Ends (orThrow error value >>= next) session outcome after) :
    (∃ found, value = some found ∧ postgres.Ends (next found) session outcome after) ∨
      value = none ∧ outcome = .error error ∧ after = session := by
  cases value with
  | none =>
      obtain ⟨rfl, rfl⟩ := ended
      exact .inr ⟨rfl, rfl, rfl⟩
  | some found => exact .inl ⟨found, rfl, ended⟩

theorem step_todayBerlin {next : Date → Work Final}
    (ended : postgres.Ends (todayBerlin >>= next) session outcome after) :
    ∃ now, session.Asked .now now ∧
      ((∃ today, berlinDate now.env.now = some today ∧
          postgres.Ends (next today) (session.saw now) outcome after) ∨
        berlinDate now.env.now = none ∧ outcome = .error .overflow ∧ after = session.saw now) := by
  obtain ⟨now, asked, rest⟩ := step_now (ends_assoc ended)
  rcases step_orThrow rest with ⟨today, known, rest⟩ | ⟨unknown, rfl, rfl⟩
  · exact ⟨now, asked, .inl ⟨today, known, rest⟩⟩
  · exact ⟨now, asked, .inr ⟨unknown, rfl, rfl⟩⟩

end Steps

/-! ### Savepoints -/

/-- A nested block keeps what its body did, or cuts the journal where it began. -/
theorem nested_ends {body : Work Result} {outcome : Except Error Result}
    (clean : session.memory.pending = [])
    (ended : postgres.Ends (nested body) session outcome after) :
    ∃ save, session.Asked .savepoint save ∧
      ((∃ value, ∃ middle : Session, ∃ release,
          postgres.Ends (do
            let value ← body
            flush
            return value) (session.saved save) (.ok value) middle ∧
          middle.Asked .release release ∧ outcome = .ok value ∧
          after = middle.released release) ∨
        ∃ error, ∃ middle : Session, ∃ back,
          postgres.Ends (do
            let value ← body
            flush
            return value) (session.saved save) (.error error) middle ∧
          middle.Asked .rollbackTo back ∧ outcome = .error error ∧
          after = middle.rolledBack back) := by
  have flushed : postgres.Ends (emit .savepoint >>= fun _ => do
      let result ← tryCatch (do
          let result ← body
          flush
          return result)
        fun error => do
          emit .rollbackTo
          throw error
      emit .release
      return result) session outcome after := by
    rcases ends_then.mp ended with ⟨⟨⟩, middle, first, rest⟩ | ⟨error, _, first⟩
    · rwa [((flush_ends_clean clean).mp first).2] at rest
    · cases ((flush_ends_clean clean).mp first).1
  rcases ends_then.mp flushed with ⟨⟨⟩, _, first, rest⟩ | ⟨error, _, first⟩
  · obtain ⟨save, asked, _, rfl⟩ := sends_savepoint (ends_emit.mp first)
    refine ⟨save, asked, ?_⟩
    rcases ends_then.mp rest with ⟨value, middle, guarded, last⟩ | ⟨error, rfl, guarded⟩
    · rcases ends_tryCatch.mp guarded with ⟨_, same, kept⟩ | ⟨error, _, _, handled⟩
      · cases same
        rcases ends_then.mp last with ⟨⟨⟩, _, second, done⟩ | ⟨error, _, second⟩
        · obtain ⟨release, sent, _, rfl⟩ := sends_release (ends_emit.mp second)
          obtain ⟨rfl, rfl⟩ := done
          exact .inl ⟨_, middle, release, kept, sent, rfl, rfl⟩
        · obtain ⟨_, _, same, _⟩ := sends_release (ends_emit.mp second)
          cases same
      · rcases ends_then.mp handled with ⟨⟨⟩, _, _, thrown⟩ | ⟨_, same, second⟩
        · cases thrown.1
        · cases same
    · rcases ends_tryCatch.mp guarded with ⟨_, same, _⟩ | ⟨raised, middle, failed, handled⟩
      · cases same
      · rcases ends_then.mp handled with ⟨⟨⟩, _, second, thrown⟩ | ⟨_, _, second⟩
        · obtain ⟨back, sent, _, rfl⟩ := sends_rollbackTo (ends_emit.mp second)
          obtain ⟨same, rfl⟩ := thrown
          cases same
          exact .inr ⟨_, middle, back, failed, sent, rfl, rfl⟩
        · obtain ⟨_, _, same, _⟩ := sends_rollbackTo (ends_emit.mp second)
          cases same
  · obtain ⟨_, _, same, _⟩ := sends_savepoint (ends_emit.mp first)
    cases same

end Fristenwaechter
