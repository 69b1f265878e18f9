import Fristenwaechter.Behaviour.Within

/-!
Owns the rule for whole transactions: every write of a session is allowed if everything
it adds and executes is, also where it rolls back to a savepoint.
-/

namespace Fristenwaechter

open Library (Server Journal)
open Library.Program (memory change forEach)

variable {allowed : Write → Prop} {session after : Session} {Result Final : Type}

/-- What the session has executed and what it has pending is allowed. -/
structure Only (allowed : Write → Prop) (session : Session) : Prop where
  writes : ∀ write ∈ session.writes, allowed write
  pending : ∀ write ∈ session.memory.pending, allowed write

theorem Only.sends {statement : Statement} {answer : Except Error (Answer statement)}
    (may : ∀ write, statement.MayWrite write → allowed write)
    (sent : postgres.Sends statement session answer after) (only : Only allowed session) :
    Only allowed after := by
  obtain ⟨entry, memory, connection, _, performed, rfl⟩ := sends_iff.mp sent
  have stepped := perform_stepped performed
  constructor
  · intro other member
    change other ∈ connection.journal.writes at member
    rcases stepped.grows with same | ⟨refs, _, grown⟩ | ⟨write, isWrite, _, _, grown⟩ |
      ⟨rollback, length, cut⟩
    · rw [same] at member
      exact only.writes other member
    · rw [grown, Journal.writes_append, Journal.writes_locks, List.append_nil] at member
      exact only.writes other member
    · rw [grown, Journal.writes_append] at member
      rcases List.mem_append.mp member with old | new
      · exact only.writes other old
      · rw [show other = write by simpa [Journal.writes] using new]
        exact may write isWrite
    · rw [cut] at member
      obtain ⟨stamped, inCut, isWrite⟩ := List.mem_filterMap.mp member
      exact only.writes other
        (List.mem_filterMap.mpr ⟨stamped, List.mem_of_mem_take inCut, isWrite⟩)
  · intro other member
    change other ∈ memory.pending at member
    rcases stepped.pending with same | ⟨_, none⟩
    · exact only.pending other (same ▸ member)
    · rw [none] at member
      cases member

/-- The same, and it already held whenever the session sent a statement. -/
structure OnlyEver (allowed : Write → Prop) (session : Session) : Prop
    extends Only allowed session where
  seen : ∀ entry ∈ session.trace, ∀ write ∈ entry.connection.journal.writes, allowed write

theorem OnlyEver.asked {statement : Statement} {entry : Sent}
    (asked : session.Asked statement entry) (only : OnlyEver allowed session) :
    ∀ sent ∈ session.trace ++ [entry], ∀ write ∈ sent.connection.journal.writes,
      allowed write := by
  intro sent member write executed
  rcases List.mem_append.mp member with old | new
  · exact only.seen sent old write executed
  · rw [List.mem_singleton.mp new, asked.connection] at executed
    exact only.writes write executed

theorem OnlyEver.sends {statement : Statement} {answer : Except Error (Answer statement)}
    (may : ∀ write, statement.MayWrite write → allowed write)
    (sent : postgres.Sends statement session answer after) (only : OnlyEver allowed session) :
    OnlyEver allowed after := by
  obtain ⟨entry, memory, connection, asked, _, isAfter⟩ := sends_iff.mp sent
  refine ⟨only.toOnly.sends may sent, ?_⟩
  rw [isAfter]
  exact only.asked asked

theorem OnlyEver.wrote {write : Write} {entry : Sent} (may : allowed write)
    (asked : session.Asked (.execute write) entry) (only : OnlyEver allowed session) :
    OnlyEver allowed (session.wrote entry write) := by
  refine ⟨⟨fun other member => ?_, fun other member => ?_⟩, only.asked asked⟩
  · rw [Session.wrote_writes] at member
    rcases List.mem_append.mp member with old | new
    · exact only.writes other old
    · exact List.mem_singleton.mp new ▸ may
  · rw [Session.wrote_memory, Memory.flushed_pending] at member
    exact only.pending other member

theorem OnlyEver.executed {writes : List Write} (may : ∀ write ∈ writes, allowed write)
    (executed : Executed writes session after) (only : OnlyEver allowed session) :
    OnlyEver allowed after := by
  induction writes generalizing session with
  | nil =>
      cases executed
      exact only
  | cons write rest inductionHypothesis =>
      obtain ⟨entry, asked, _, remaining⟩ := executed
      exact inductionHypothesis (fun other member => may other (List.mem_cons_of_mem _ member))
        remaining (only.wrote (may write List.mem_cons_self) asked)

theorem OnlyEver.withPending {pending : List Write} (may : ∀ write ∈ pending, allowed write)
    (only : OnlyEver allowed session) : OnlyEver allowed (session.withPending pending) :=
  ⟨⟨only.writes, may⟩, only.seen⟩

theorem OnlyEver.mono {other : Write → Prop} (weaker : ∀ write, allowed write → other write)
    (only : OnlyEver allowed session) : OnlyEver other session :=
  ⟨⟨fun write member => weaker write (only.writes write member),
      fun write member => weaker write (only.pending write member)⟩,
    fun entry member write executed => weaker write (only.seen entry member write executed)⟩

section Rules

theorem only_then {first : Work Result} {next : Result → Work Final}
    (one : postgres.Preserves (OnlyEver allowed) first)
    (two : ∀ value, postgres.Preserves (OnlyEver allowed) (next value)) :
    postgres.Preserves (OnlyEver allowed) (first >>= next) :=
  Server.preserves_bind one two

theorem only_pure (value : Result) :
    postgres.Preserves (OnlyEver allowed) (pure value : Work Result) :=
  Server.preserves_done value

theorem only_throw (error : Error) :
    postgres.Preserves (OnlyEver allowed) (throw error : Work Result) :=
  Server.preserves_raise error

theorem only_guard {condition : Prop} [Decidable condition] {error : Error}
    {rest : Unit → Work Result} (kept : postgres.Preserves (OnlyEver allowed) (rest ())) :
    postgres.Preserves (OnlyEver allowed)
      (if condition then (throw error : Work Unit) >>= rest else rest ()) := by
  split
  · exact only_throw error
  · exact kept

theorem only_tryCatch {program : Work Result} {handler : Error → Work Result}
    (first : postgres.Preserves (OnlyEver allowed) program)
    (second : ∀ error, postgres.Preserves (OnlyEver allowed) (handler error)) :
    postgres.Preserves (OnlyEver allowed) (tryCatch program handler) :=
  Server.preserves_handle first second

theorem only_orThrow (error : Error) (value : Option Result) :
    postgres.Preserves (OnlyEver allowed) (orThrow error value) := by
  cases value with
  | none => exact only_throw error
  | some found => exact only_pure found

theorem only_forEach {Item : Type} {items : List Item} {body : Item → Work Unit}
    (kept : ∀ item ∈ items, postgres.Preserves (OnlyEver allowed) (body item)) :
    postgres.Preserves (OnlyEver allowed) (forEach items body) :=
  Server.preserves_forEach kept

theorem only_emit {statement : Statement}
    (may : ∀ write, statement.MayWrite write → allowed write) :
    postgres.Preserves (OnlyEver allowed) (emit statement) :=
  Server.preserves_send fun _ _ _ sent only => only.sends may sent

theorem only_add {write : Write} (may : allowed write) :
    postgres.Preserves (OnlyEver allowed) (add write) := by
  refine Server.preserves_change fun session only =>
    only.withPending fun other member => ?_
  rcases List.mem_append.mp member with old | new
  · exact only.pending other old
  · exact List.mem_singleton.mp new ▸ may

theorem only_addAll {writes : List Write} (may : ∀ write ∈ writes, allowed write) :
    postgres.Preserves (OnlyEver allowed) (addAll writes) := by
  refine Server.preserves_change fun session only =>
    only.withPending fun other member => ?_
  rcases List.mem_append.mp member with old | new
  · exact only.pending other old
  · exact may other new

theorem only_flush : postgres.Preserves (OnlyEver allowed) flush := by
  intro session outcome after ended only
  have cleared : OnlyEver allowed (Session.withPending session []) := only.withPending (by simp)
  rcases flush_ends ended with ⟨_, executed⟩ | ⟨error, _, refused⟩
  · exact cleared.executed
      (fun write member => only.pending write (mem_unitOfWork.mp member)) executed
  · obtain ⟨done, write, rest, middle, entry, whole, executed, asked, _, rfl⟩ := refused
    have may : ∀ other ∈ done, allowed other := fun other member =>
      only.pending other (mem_unitOfWork.mp (whole ▸ List.mem_append_left _ member))
    have middleOnly := cleared.executed may executed
    exact ⟨⟨middleOnly.writes, middleOnly.pending⟩, middleOnly.asked asked⟩

theorem only_select {statement : Statement}
    (may : ∀ write, statement.MayWrite write → allowed write) :
    postgres.Preserves (OnlyEver allowed) (select statement) :=
  only_then only_flush fun _ => only_emit may

theorem only_read {statement : Statement} (reads : ∀ write, ¬ statement.MayWrite write) :
    postgres.Preserves (OnlyEver allowed) (select statement) :=
  only_select fun write may => absurd may (reads write)

theorem only_now : postgres.Preserves (OnlyEver allowed) nowBerlin :=
  only_emit fun _ may => may.elim

theorem only_todayBerlin : postgres.Preserves (OnlyEver allowed) todayBerlin :=
  only_then only_now fun _ => only_orThrow _ _

theorem only_serverDefaults : postgres.Preserves (OnlyEver allowed) (emit .serverDefaults) :=
  only_emit fun _ may => may.elim

theorem only_getDriver (id : Uuid) : postgres.Preserves (OnlyEver allowed) (getDriver id) := by
  refine Server.preserves_bind (Server.preserves_inspect fun memory => Server.preserves_done _)
    fun session => ?_
  split
  · exact only_pure _
  · exact only_read fun _ may => may

theorem only_getVehicle (id : Uuid) : postgres.Preserves (OnlyEver allowed) (getVehicle id) := by
  refine Server.preserves_bind (Server.preserves_inspect fun memory => Server.preserves_done _)
    fun session => ?_
  split
  · exact only_pure _
  · exact only_read fun _ may => may

theorem only_getCompany (id : Uuid) : postgres.Preserves (OnlyEver allowed) (getCompany id) := by
  refine Server.preserves_bind (Server.preserves_inspect fun memory => Server.preserves_done _)
    fun session => ?_
  split
  · exact only_pure _
  · exact only_read fun _ may => may

theorem only_nested {body : Work Result} (kept : postgres.Preserves (OnlyEver allowed) body) :
    postgres.Preserves (OnlyEver allowed) (nested body) := by
  refine only_then only_flush fun _ => only_then (only_emit fun _ may => may.elim) fun _ => ?_
  refine only_then (only_tryCatch ?_ fun error => ?_) fun result => ?_
  · exact only_then kept fun _ => only_then only_flush fun _ => only_pure _
  · exact only_then (only_emit fun _ may => may.elim) fun _ => only_throw error
  · exact only_then (only_emit fun _ may => may.elim) fun _ => only_pure result

theorem only_transaction {body : Work Result} (kept : postgres.Preserves (OnlyEver allowed) body) :
    postgres.Preserves (OnlyEver allowed) (transaction body) :=
  only_then kept fun _ => only_then only_flush fun _ => only_pure _

end Rules

end Fristenwaechter
