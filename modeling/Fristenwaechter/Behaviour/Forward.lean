import Fristenwaechter.Behaviour.Made

/-!
Owns the rule for programs that roll nothing back: what they have made stays made, and what a
session had executed when it sent a statement is the beginning of what it has executed in the
end.
-/

namespace Fristenwaechter

open Library (Server)
open Library.Program (forEach)

variable {session after : Session} {Result Final : Type}

theorem ends_through {first : Work Result} {next : Result → Work Final} {value : Final}
    (ended : postgres.Ends (first >>= next) session (.ok value) after) :
    ∃ given middle, postgres.Ends first session (.ok given) middle ∧
      postgres.Ends (next given) middle (.ok value) after := by
  rcases ends_then.mp ended with ⟨given, middle, one, rest⟩ | ⟨_, same, _⟩
  · exact ⟨given, middle, one, rest⟩
  · cases same

/-- A later state of a session that has rolled nothing back. -/
structure Session.Goes (session after : Session) : Prop
    extends Session.Adds (fun _ => True) session after where
  writes : session.writes <+: after.writes

theorem Session.Goes.trans {first second third : Session} (one : first.Goes second)
    (two : second.Goes third) : first.Goes third :=
  ⟨one.toAdds.trans two.toAdds, one.writes.trans two.writes⟩

/-- Every successful end of the program has rolled nothing back. -/
def Forward (program : Work Result) : Prop :=
  ∀ (session : Session) (value : Result) (after : Session),
    postgres.Ends program session (.ok value) after → session.Goes after

theorem forward_then {first : Work Result} {next : Result → Work Final} (one : Forward first)
    (two : ∀ value, Forward (next value)) : Forward (first >>= next) := by
  intro session value after ended
  obtain ⟨given, middle, began, rest⟩ := ends_through ended
  exact (one _ _ _ began).trans (two given _ _ _ rest)

theorem forward_pure (value : Result) : Forward (pure value : Work Result) := by
  rintro session _ _ ⟨_, rfl⟩
  exact ⟨.refl _, List.prefix_rfl⟩

theorem forward_emit {statement : Statement} (kept : statement ≠ .rollbackTo)
    (running : statement ≠ .begin) : Forward (emit statement) := by
  intro session value after ended
  have sent := ends_emit.mp ended
  refine ⟨.sends kept running (fun _ _ => trivial) sent, ?_⟩
  obtain ⟨entry, memory, connection, _, performed, rfl⟩ := sends_iff.mp sent
  change session.connection.journal.writes <+: connection.journal.writes
  rcases (perform_stepped performed).grows with same | ⟨refs, _, grown⟩ |
    ⟨write, _, _, _, grown⟩ | ⟨rollback, _⟩
  · exact same ▸ List.prefix_rfl
  · rw [grown, Library.Journal.writes_append]
    exact List.prefix_append _ _
  · rw [grown, Library.Journal.writes_append]
    exact List.prefix_append _ _
  · exact absurd rollback kept

theorem Session.Goes.flushed
    (executed : Executed (unitOfWork session.memory.pending) (session.withPending []) after) :
    session.Goes after := by
  refine ⟨.flushed executed, ?_⟩
  rw [executed.writes]
  exact List.prefix_append _ _

theorem forward_flush : Forward flush := by
  intro session value after ended
  rcases flush_ends ended with ⟨_, executed⟩ | ⟨_, same, _⟩
  · exact .flushed executed
  · cases same

theorem forward_select {statement : Statement} (kept : statement ≠ .rollbackTo)
    (running : statement ≠ .begin) : Forward (select statement) :=
  forward_then forward_flush fun _ => forward_emit kept running

theorem forward_addAll (writes : List Write) : Forward (addAll writes) := by
  intro session value after ended
  obtain ⟨_, rfl⟩ := ends_addAll.mp ended
  refine ⟨⟨List.prefix_rfl, rfl, rfl, fun other member => ?_, fun _ _ => .inr trivial⟩,
    List.prefix_rfl⟩
  rcases List.mem_append.mp member with executed | pending
  · exact List.mem_append_left _ executed
  · exact List.mem_append_right _ (List.mem_append_left _ pending)

theorem forward_forEach {Item : Type} {items : List Item} {body : Item → Work Unit}
    (each : ∀ item, Forward (body item)) : Forward (forEach items body) := by
  induction items with
  | nil => exact forward_pure ()
  | cons item rest inductionHypothesis =>
      exact forward_then (each item) fun _ => inductionHypothesis

theorem forEach_made {Item : Type} {items : List Item} {writes : Item → List Write}
    (ended : postgres.Ends (forEach items fun item => addAll (writes item)) session (.ok ()) after)
    {item : Item} (member : item ∈ items) {write : Write} (inside : write ∈ writes item) :
    write ∈ after.made := by
  obtain ⟨_, rest, before, middle, _, one, remaining⟩ := Server.ends_forEach_mem ended member
  obtain ⟨_, rfl⟩ := ends_addAll.mp one
  have goes := forward_forEach (fun other => forward_addAll (writes other)) _ _ _ remaining
  exact goes.kept _ (List.mem_append_right _ (List.mem_append_right _ inside))

theorem select_through {statement : Statement} {answer : Answer statement}
    (ended : postgres.Ends (select statement) session (.ok answer) after) :
    ∃ middle, session.Goes middle ∧ postgres.Sends statement middle (.ok answer) after := by
  obtain ⟨_, middle, flushed, sent⟩ := ends_through ended
  exact ⟨middle, forward_flush _ _ _ flushed, ends_emit.mp sent⟩

/-- The session has sent the statement, for no tenant, and has rolled nothing back since. -/
structure Session.Looked (session : Session) (statement : Statement) (read : Sent) : Prop where
  inTrace : read ∈ session.trace
  asked : read.statement = statement
  tenant : read.connection.tenant = none
  writes : read.connection.journal.writes <+: session.writes

theorem Session.Looked.goes {statement : Statement} {read : Sent}
    (looked : session.Looked statement read) (goes : session.Goes after) :
    after.Looked statement read :=
  ⟨goes.trace.subset looked.inTrace, looked.asked, looked.tenant,
    looked.writes.trans goes.writes⟩

theorem Session.Looked.select {statement : Statement} {answer : Answer statement} {read : Sent}
    {middle : Session} (kept : statement ≠ .rollbackTo) (running : statement ≠ .begin)
    (unpinned : middle.connection.tenant = none) (asked : middle.Asked statement read)
    (sent : postgres.Sends statement middle (.ok answer) after) (inTrace : read ∈ after.trace) :
    after.Looked statement read := by
  have goes := forward_emit kept running _ _ _ (ends_emit.mpr sent)
  refine ⟨inTrace, asked.statement, ?_, ?_⟩
  · rw [asked.connection]
    exact unpinned
  · rw [asked.connection]
    exact goes.writes

end Fristenwaechter
