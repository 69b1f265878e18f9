import Fristenwaechter.Behaviour.Within

/-!
Owns what a successful program makes: the writes it has executed or has pending only
grow, and by nothing but allowed ones; its session keeps its tenant and its start.
-/

namespace Fristenwaechter

open Library (Server Journal)
open Library.Program (memory change forEach)

variable {allowed : Write → Prop} {session after : Session} {Result Final : Type}

/-- The writes of a session, executed or pending. -/
def Session.made (session : Session) : List Write :=
  session.writes ++ session.memory.pending

/-- A later state of a session that has made nothing else but allowed writes. -/
structure Session.Adds (allowed : Write → Prop) (session after : Session) : Prop where
  trace : session.trace <+: after.trace
  tenant : after.connection.tenant = session.connection.tenant
  startedAt : after.connection.startedAt = session.connection.startedAt
  kept : ∀ write ∈ session.made, write ∈ after.made
  added : ∀ write ∈ after.made, write ∈ session.made ∨ allowed write

theorem Session.Adds.refl (session : Session) : session.Adds allowed session :=
  ⟨List.prefix_rfl, rfl, rfl, fun _ member => member, fun _ member => .inl member⟩

theorem Session.Adds.trans {first second third : Session} (one : first.Adds allowed second)
    (two : second.Adds allowed third) : first.Adds allowed third where
  trace := one.trace.trans two.trace
  tenant := two.tenant.trans one.tenant
  startedAt := two.startedAt.trans one.startedAt
  kept write member := two.kept write (one.kept write member)
  added write member := by
    rcases two.added write member with earlier | may
    · exact one.added write earlier
    · exact .inr may

theorem Session.Adds.mono {other : Write → Prop} (weaker : ∀ write, allowed write → other write)
    (adds : session.Adds allowed after) : session.Adds other after :=
  { adds with added := fun write member => (adds.added write member).imp_right (weaker write) }

/-- Only a `BEGIN` moves the start of a transaction. -/
theorem perform_startedAt {world : World} {env : Env} {others : List Connection}
    {memory memory' : Memory} {connection connection' : Connection} {statement : Statement}
    {answer : Except Error (Answer statement)} (running : statement ≠ .begin)
    (performed : perform world env others memory connection statement =
      some (answer, memory', connection')) :
    connection'.startedAt = connection.startedAt := by
  have replied : ∀ {statement : Statement} {given : Answer statement}
      {answer : Except Error (Answer statement)} {memory memory' : Memory},
      reply given memory connection = some (answer, memory', connection') →
        connection'.startedAt = connection.startedAt := by
    intro statement given answer memory memory' replied
    rw [(reply_inv replied).2.2]
  have locked : ∀ {statement : Statement} {refs : List Ref} {given : Answer statement}
      {answer : Except Error (Answer statement)} {memory memory' : Memory},
      lockAndReply world others refs given memory connection = some (answer, memory', connection') →
        connection'.startedAt = connection.startedAt := by
    intro statement refs given answer memory memory' replied
    rw [(lockAndReply_inv replied).2.2.2]
    rfl
  have executed : ∀ {statement : Statement} {write : Write} {given : Answer statement}
      {answer : Except Error (Answer statement)} {memory memory' : Memory},
      executeAndReply world others write given memory connection =
        some (answer, memory', connection') → connection'.startedAt = connection.startedAt := by
    intro statement write given answer memory memory' replied
    obtain ⟨_, ⟨_, _, _, _, rfl⟩ | ⟨_, _, _, rfl⟩⟩ := executeAndReply_inv replied <;> rfl
  delta perform at performed
  cases statement <;> dsimp only at performed
  case begin => exact absurd rfl running
  case savepoint => rw [(reply_inv performed).2.2]
  case rollbackTo => rw [(reply_inv performed).2.2]
  case release => rw [(reply_inv performed).2.2]
  case deliver message =>
    split at performed
    · exact replied performed
    · exact replied performed
    · cases performed
      rfl
  case driverForUpdate id companyId =>
    split at performed
    · exact replied performed
    · exact locked (lockRowAndReply_inv performed)
  case vehicleForUpdate id =>
    split at performed
    · exact replied performed
    · exact locked (lockRowAndReply_inv performed)
  case deadlineForUpdate id companyId =>
    split at performed
    · exact replied performed
    · exact locked (lockRowAndReply_inv performed)
  all_goals first
    | exact replied performed
    | exact locked performed
    | exact executed performed
    | (split at performed <;> exact replied performed)

theorem Session.Adds.sends {statement : Statement} {answer : Except Error (Answer statement)}
    (kept : statement ≠ .rollbackTo) (running : statement ≠ .begin)
    (may : ∀ write, statement.MayWrite write → allowed write)
    (sent : postgres.Sends statement session answer after) : session.Adds allowed after := by
  obtain ⟨entry, memory, connection, _, performed, rfl⟩ := sends_iff.mp sent
  have stepped := perform_stepped performed
  have pending : memory.pending = session.memory.pending := by
    rcases stepped.pending with same | ⟨rollback, _⟩
    · exact same
    · exact absurd rollback kept
  have executed : ∃ more, connection.journal.writes = session.writes ++ more ∧
      ∀ write ∈ more, allowed write := by
    rcases stepped.grows with same | ⟨refs, _, grown⟩ | ⟨own, isOwn, _, _, grown⟩ | ⟨rollback, _⟩
    · exact ⟨[], by rw [same, List.append_nil]; rfl, by simp⟩
    · exact ⟨[], by rw [grown, Journal.writes_append, Journal.writes_locks]; rfl, by simp⟩
    · refine ⟨[own], by rw [grown, Journal.writes_append]; rfl, ?_⟩
      intro write member
      exact List.mem_singleton.mp member ▸ may own isOwn
    · exact absurd rollback kept
  obtain ⟨more, grown, all⟩ := executed
  refine ⟨List.prefix_append _ _, stepped.tenant, perform_startedAt running performed, ?_, ?_⟩
  · intro write member
    change write ∈ connection.journal.writes ++ memory.pending
    rw [grown, pending]
    rcases List.mem_append.mp member with old | waiting
    · simp [old]
    · simp [waiting]
  · intro write member
    change write ∈ connection.journal.writes ++ memory.pending at member
    rw [grown, pending] at member
    simp only [List.mem_append] at member
    rcases member with (old | new) | waiting
    · exact .inl (List.mem_append_left _ old)
    · exact .inr (all write new)
    · exact .inl (List.mem_append_right _ waiting)

theorem Session.Adds.flushed
    (executed : Executed (unitOfWork session.memory.pending) (session.withPending []) after) :
    session.Adds allowed after := by
  have same : ∀ write, write ∈ after.made ↔ write ∈ session.made := by
    intro write
    have pending : after.memory.pending = [] := executed.pending
    simp [Session.made, executed.writes, pending, mem_unitOfWork]
  exact ⟨executed.grown.trace, executed.grown.tenant, executed.grown.startedAt,
    fun write member => (same write).mpr member, fun write member => .inl ((same write).mp member)⟩

/-- Every successful end of the program adds nothing but allowed writes. -/
def Adding (allowed : Write → Prop) (program : Work Result) : Prop :=
  ∀ (session : Session) (value : Result) (after : Session),
    postgres.Ends program session (.ok value) after → session.Adds allowed after

theorem adding_then {first : Work Result} {next : Result → Work Final}
    (one : Adding allowed first) (two : ∀ value, Adding allowed (next value)) :
    Adding allowed (first >>= next) := by
  intro session value after ended
  rcases ends_then.mp ended with ⟨given, middle, firstEnded, secondEnded⟩ | ⟨_, same, _⟩
  · exact (one _ _ _ firstEnded).trans (two given _ _ _ secondEnded)
  · cases same

theorem adding_pure (value : Result) : Adding allowed (pure value : Work Result) := by
  rintro session _ _ ⟨_, rfl⟩
  exact .refl _

theorem adding_throw (error : Error) : Adding allowed (throw error : Work Result) := by
  rintro session value after ⟨same, _⟩
  cases same

theorem adding_orThrow (error : Error) (value : Option Result) :
    Adding allowed (orThrow error value) := by
  cases value with
  | none => exact adding_throw error
  | some found => exact adding_pure found

theorem adding_emit {statement : Statement} (kept : statement ≠ .rollbackTo)
    (running : statement ≠ .begin) (may : ∀ write, statement.MayWrite write → allowed write) :
    Adding allowed (emit statement) :=
  fun _ _ _ ended => .sends kept running may (ends_emit.mp ended)

theorem adding_add {write : Write} (may : allowed write) : Adding allowed (add write) := by
  intro session value after ended
  obtain ⟨_, rfl⟩ := ends_add.mp ended
  refine ⟨List.prefix_rfl, rfl, rfl, fun other member => ?_, fun other member => ?_⟩
  · rcases List.mem_append.mp member with old | waiting
    · exact List.mem_append_left _ old
    · exact List.mem_append_right _ (List.mem_append_left _ waiting)
  · rcases List.mem_append.mp member with old | waiting
    · exact .inl (List.mem_append_left _ old)
    · rcases List.mem_append.mp waiting with before | new
      · exact .inl (List.mem_append_right _ before)
      · exact .inr (List.mem_singleton.mp new ▸ may)

theorem adding_flush : Adding allowed flush := by
  intro session value after ended
  rcases flush_ends ended with ⟨_, executed⟩ | ⟨_, same, _⟩
  · exact .flushed executed
  · cases same

theorem adding_read {statement : Statement} (kept : statement ≠ .rollbackTo)
    (running : statement ≠ .begin) (reads : ∀ write, ¬ statement.MayWrite write) :
    Adding allowed (select statement) :=
  adding_then adding_flush fun _ =>
    adding_emit kept running fun write may => absurd may (reads write)

theorem adding_getDriver (id : Uuid) : Adding allowed (getDriver id) := by
  refine adding_then (fun session value after ended => ?_) fun session => ?_
  · obtain ⟨_, rfl⟩ := Server.ends_memory.mp ended
    exact .refl _
  · split
    · exact adding_pure _
    · exact adding_read (by simp) (by simp) fun _ may => may

theorem adding_getVehicle (id : Uuid) : Adding allowed (getVehicle id) := by
  refine adding_then (fun session value after ended => ?_) fun session => ?_
  · obtain ⟨_, rfl⟩ := Server.ends_memory.mp ended
    exact .refl _
  · split
    · exact adding_pure _
    · exact adding_read (by simp) (by simp) fun _ may => may

theorem made_add {write : Write} {outcome : Except Error Unit}
    (ended : postgres.Ends (add write) session outcome after) : write ∈ after.made := by
  obtain ⟨_, rfl⟩ := ends_add.mp ended
  exact List.mem_append_right _ (by simp)

theorem made_committed (executed : Executed (unitOfWork session.memory.pending)
    (session.withPending []) after) : ∀ write, write ∈ after.writes ↔ write ∈ session.made := by
  intro write
  rw [executed.writes]
  simp [Session.made, mem_unitOfWork]

end Fristenwaechter
