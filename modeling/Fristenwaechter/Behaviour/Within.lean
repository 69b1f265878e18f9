import Fristenwaechter.Flushing

/-!
Owns the rule for programs that loop: a session stays within a set of allowed writes
if everything it adds and executes is allowed. Its journal and its trace only grow.
-/

namespace Fristenwaechter

open Library (Server Journal)
open Library.Program (memory change forEach)

variable {allowed : Write → Prop} {base session after : Session} {Result Final : Type}

/-- What the session has executed since `base`, and what it has pending, is allowed. -/
structure Within (allowed : Write → Prop) (base session : Session) : Prop where
  grown : ∃ more : Journal World Write Ref,
    session.connection.journal = base.connection.journal ++ more ∧
      ∀ write ∈ more.writes, allowed write
  trace : base.trace <+: session.trace
  tenant : session.connection.tenant = base.connection.tenant
  pending : ∀ write ∈ session.memory.pending, allowed write

theorem Within.refl (pending : ∀ write ∈ base.memory.pending, allowed write) :
    Within allowed base base :=
  ⟨⟨[], by simp, by simp [Journal.writes]⟩, List.prefix_rfl, rfl, pending⟩

theorem Within.writes (within : Within allowed base session) :
    ∃ more, session.writes = base.writes ++ more ∧ ∀ write ∈ more, allowed write := by
  obtain ⟨more, grown, all⟩ := within.grown
  refine ⟨more.writes, ?_, all⟩
  rw [Session.writes, grown, Journal.writes_append]
  rfl

theorem Within.mono {other : Write → Prop} (weaker : ∀ write, allowed write → other write)
    (within : Within allowed base session) : Within other base session := by
  obtain ⟨more, grown, all⟩ := within.grown
  exact ⟨⟨more, grown, fun write member => weaker write (all write member)⟩, within.trace,
    within.tenant, fun write member => weaker write (within.pending write member)⟩

theorem Within.sends {statement : Statement} {answer : Except Error (Answer statement)}
    (kept : statement ≠ .rollbackTo) (may : ∀ write, statement.MayWrite write → allowed write)
    (sent : postgres.Sends statement session answer after) (within : Within allowed base session) :
    Within allowed base after := by
  obtain ⟨entry, memory, connection, _, performed, rfl⟩ := sends_iff.mp sent
  have stepped := perform_stepped performed
  obtain ⟨more, whole, all⟩ := within.grown
  refine ⟨?_, within.trace.trans (List.prefix_append _ _), stepped.tenant.trans within.tenant, ?_⟩
  · rcases stepped.grows with same | ⟨refs, _, grown⟩ | ⟨write, isWrite, _, _, grown⟩ |
      ⟨rollback, _⟩
    · exact ⟨more, same.trans whole, all⟩
    · refine ⟨more ++ refs.map fun ref => (entry.world, .lock ref), ?_, ?_⟩
      · rw [grown, whole, List.append_assoc]
      · rwa [Journal.writes_append, Journal.writes_locks, List.append_nil]
    · refine ⟨more ++ [(entry.world, .write write)], ?_, ?_⟩
      · rw [grown, whole, List.append_assoc]
      · intro other member
        rw [Journal.writes_append] at member
        rcases List.mem_append.mp member with old | new
        · exact all other old
        · rw [show other = write by simpa [Journal.writes] using new]
          exact may write isWrite
    · exact absurd rollback kept
  · rcases stepped.pending with same | ⟨rollback, _⟩
    · exact fun write member => within.pending write (same ▸ member)
    · exact absurd rollback kept

theorem Within.saw {entry : Sent} (within : Within allowed base session) :
    Within allowed base (session.saw entry) :=
  ⟨within.grown, within.trace.trans (List.prefix_append _ _), within.tenant, within.pending⟩

theorem Within.withPending {pending : List Write} (may : ∀ write ∈ pending, allowed write)
    (within : Within allowed base session) : Within allowed base (session.withPending pending) :=
  ⟨within.grown, within.trace, within.tenant, may⟩

theorem Within.wrote {entry : Sent} {write : Write} (may : allowed write)
    (within : Within allowed base session) : Within allowed base (session.wrote entry write) := by
  obtain ⟨more, whole, all⟩ := within.grown
  refine ⟨⟨more ++ [(entry.world, .write write)], ?_, ?_⟩,
    within.trace.trans (List.prefix_append _ _), within.tenant, ?_⟩
  · rw [Session.wrote_connection, Connection.write, whole, List.append_assoc]
  · intro other member
    rw [Journal.writes_append] at member
    rcases List.mem_append.mp member with old | new
    · exact all other old
    · rw [show other = write by simpa [Journal.writes] using new]
      exact may
  · simpa using within.pending

theorem Within.executed {writes : List Write} (may : ∀ write ∈ writes, allowed write)
    (executed : Executed writes session after) (within : Within allowed base session) :
    Within allowed base after := by
  induction writes generalizing session with
  | nil =>
      cases executed
      exact within
  | cons write rest inductionHypothesis =>
      obtain ⟨entry, _, _, remaining⟩ := executed
      exact inductionHypothesis (fun other member => may other (by simp [member])) remaining
        (within.wrote (may write (by simp)))

theorem mem_unitOfWork {write : Write} {writes : List Write} :
    write ∈ unitOfWork writes ↔ write ∈ writes :=
  (List.perm_insertionSort _ writes).mem_iff

theorem Within.committed
    (executed : Executed (unitOfWork session.memory.pending) (session.withPending []) after)
    (within : Within allowed base session) : Within allowed base after :=
  (within.withPending (by simp)).executed
    (fun write member => within.pending write (mem_unitOfWork.mp member)) executed

section Rules

theorem within_then {first : Work Result} {next : Result → Work Final}
    (one : postgres.Preserves (Within allowed base) first)
    (two : ∀ value, postgres.Preserves (Within allowed base) (next value)) :
    postgres.Preserves (Within allowed base) (first >>= next) :=
  Server.preserves_bind one two

theorem within_pure (value : Result) :
    postgres.Preserves (Within allowed base) (pure value : Work Result) :=
  Server.preserves_done value

theorem within_throw (error : Error) :
    postgres.Preserves (Within allowed base) (throw error : Work Result) :=
  Server.preserves_raise error

theorem within_orThrow (error : Error) (value : Option Result) :
    postgres.Preserves (Within allowed base) (orThrow error value) := by
  cases value with
  | none => exact within_throw error
  | some found => exact within_pure found

theorem within_forEach {Item : Type} {items : List Item} {body : Item → Work Unit}
    (kept : ∀ item ∈ items, postgres.Preserves (Within allowed base) (body item)) :
    postgres.Preserves (Within allowed base) (forEach items body) :=
  Server.preserves_forEach kept

theorem within_emit {statement : Statement} (kept : statement ≠ .rollbackTo)
    (may : ∀ write, statement.MayWrite write → allowed write) :
    postgres.Preserves (Within allowed base) (emit statement) :=
  Server.preserves_send fun _ _ _ sent within => within.sends kept may sent

theorem within_add {write : Write} (may : allowed write) :
    postgres.Preserves (Within allowed base) (add write) := by
  refine Server.preserves_change fun session within => ?_
  refine ⟨within.grown, within.trace, within.tenant, fun other member => ?_⟩
  rcases List.mem_append.mp member with old | new
  · exact within.pending other old
  · exact List.mem_singleton.mp new ▸ may

theorem within_addAll {writes : List Write} (may : ∀ write ∈ writes, allowed write) :
    postgres.Preserves (Within allowed base) (addAll writes) := by
  refine Server.preserves_change fun session within => ?_
  refine ⟨within.grown, within.trace, within.tenant, fun other member => ?_⟩
  rcases List.mem_append.mp member with old | new
  · exact within.pending other old
  · exact may other new

theorem within_flush : postgres.Preserves (Within allowed base) flush := by
  intro session outcome after ended within
  rcases flush_ends ended with ⟨_, executed⟩ | ⟨error, _, refused⟩
  · exact within.committed executed
  · obtain ⟨done, write, rest, middle, entry, whole, executed, _, _, rfl⟩ := refused
    have may : ∀ other ∈ done, allowed other := fun other member =>
      within.pending other (mem_unitOfWork.mp (whole ▸ List.mem_append_left _ member))
    exact ((within.withPending (by simp)).executed may executed).saw

theorem within_select {statement : Statement} (kept : statement ≠ .rollbackTo)
    (may : ∀ write, statement.MayWrite write → allowed write) :
    postgres.Preserves (Within allowed base) (select statement) :=
  within_then within_flush fun _ => within_emit kept may

theorem within_read {statement : Statement} (kept : statement ≠ .rollbackTo)
    (reads : ∀ write, ¬ statement.MayWrite write) :
    postgres.Preserves (Within allowed base) (select statement) :=
  within_select kept fun write may => absurd may (reads write)

theorem within_now : postgres.Preserves (Within allowed base) nowBerlin :=
  within_emit (by simp) fun _ may => may.elim

theorem within_todayBerlin : postgres.Preserves (Within allowed base) todayBerlin :=
  within_then within_now fun _ => within_orThrow _ _

theorem within_serverDefaults :
    postgres.Preserves (Within allowed base) (emit .serverDefaults) :=
  within_emit (by simp) fun _ may => may.elim

theorem within_getDriver (id : Uuid) :
    postgres.Preserves (Within allowed base) (getDriver id) := by
  refine Server.preserves_bind (Server.preserves_inspect fun memory => Server.preserves_done _)
    fun session => ?_
  split
  · exact within_pure _
  · exact within_read (by simp) fun _ may => may

theorem within_getVehicle (id : Uuid) :
    postgres.Preserves (Within allowed base) (getVehicle id) := by
  refine Server.preserves_bind (Server.preserves_inspect fun memory => Server.preserves_done _)
    fun session => ?_
  split
  · exact within_pure _
  · exact within_read (by simp) fun _ may => may

theorem within_getCompany (id : Uuid) :
    postgres.Preserves (Within allowed base) (getCompany id) := by
  refine Server.preserves_bind (Server.preserves_inspect fun memory => Server.preserves_done _)
    fun session => ?_
  split
  · exact within_pure _
  · exact within_read (by simp) fun _ may => may

end Rules

end Fristenwaechter
