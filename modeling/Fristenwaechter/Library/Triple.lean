import Fristenwaechter.Library.Behaviour

/-!
Owns pre- and postconditions of programs: a triple says what holds where a program
returns and where it raises, if the precondition held where it started. Unlike
`Server.Preserves` the postcondition may speak of the value, so what a statement has
answered is known to the statements after it.
-/

namespace Fristenwaechter.Library

variable {World Memory Connection Statement : Type} {Answer : Statement → Type}
variable {Env Error Value Final : Type}

namespace Server

/-- Partial correctness, with one postcondition for values and one for exceptions. -/
structure Triple (server : Server World Memory Connection Statement Answer Env Error)
    (pre : Transaction World Memory Connection Statement Env → Prop)
    (program : Program Memory Statement Answer Error Value)
    (post : Value → Transaction World Memory Connection Statement Env → Prop)
    (failed : Transaction World Memory Connection Statement Env → Prop) : Prop where
  returns : ∀ {transaction value after}, server.Ends program transaction (.ok value) after →
    pre transaction → post value after
  raises : ∀ {transaction error after}, server.Ends program transaction (.error error) after →
    pre transaction → failed after

variable {server : Server World Memory Connection Statement Answer Env Error}
variable {pre failed : Transaction World Memory Connection Statement Env → Prop}
variable {post : Value → Transaction World Memory Connection Statement Env → Prop}
variable {last : Final → Transaction World Memory Connection Statement Env → Prop}

theorem triple_done {value : Value}
    (holds : ∀ transaction, pre transaction → post value transaction) :
    server.Triple pre (.done value) post failed where
  returns := by
    rintro transaction _ _ ⟨same, rfl⟩ before
    cases same
    exact holds _ before
  raises := by
    rintro transaction error after ⟨same, _⟩
    cases same

theorem triple_raise {error : Error} (holds : ∀ transaction, pre transaction → failed transaction) :
    server.Triple pre (.raise error) post failed where
  returns := by
    rintro transaction value after ⟨same, _⟩
    cases same
  raises := by
    rintro transaction _ _ ⟨_, rfl⟩ before
    exact holds _ before

/-- The rule of composition. -/
theorem triple_bind {program : Program Memory Statement Answer Error Value}
    {next : Value → Program Memory Statement Answer Error Final}
    (first : server.Triple pre program post failed)
    (second : ∀ value, server.Triple (post value) (next value) last failed) :
    server.Triple pre (program.bind next) last failed where
  returns := by
    intro transaction value after ended before
    rcases ends_bind.mp ended with ⟨given, middle, one, two⟩ | ⟨error, same, _⟩
    · exact (second given).returns two (first.returns one before)
    · cases same
  raises := by
    intro transaction error after ended before
    rcases ends_bind.mp ended with ⟨given, middle, one, two⟩ | ⟨error, _, one⟩
    · exact (second given).raises two (first.returns one before)
    · exact first.raises one before

/-- The rule of exceptions. -/
theorem triple_handle {program : Program Memory Statement Answer Error Value}
    {handler : Error → Program Memory Statement Answer Error Value}
    {thrown : Transaction World Memory Connection Statement Env → Prop}
    (first : server.Triple pre program post thrown)
    (second : ∀ error, server.Triple thrown (handler error) post failed) :
    server.Triple pre (program.handle handler) post failed where
  returns := by
    intro transaction value after ended before
    rcases ends_handle.mp ended with ⟨_, same, one⟩ | ⟨error, middle, one, two⟩
    · cases same
      exact first.returns one before
    · exact (second error).returns two (first.raises one before)
  raises := by
    intro transaction error after ended before
    rcases ends_handle.mp ended with ⟨_, same, _⟩ | ⟨error, middle, one, two⟩
    · cases same
    · exact (second error).raises two (first.raises one before)

/-- The rule of consequence. -/
theorem Triple.weaken {program : Program Memory Statement Answer Error Value}
    {stronger laterFailed : Transaction World Memory Connection Statement Env → Prop}
    {later : Value → Transaction World Memory Connection Statement Env → Prop}
    (triple : server.Triple pre program post failed)
    (before : ∀ transaction, stronger transaction → pre transaction)
    (after : ∀ value transaction, post value transaction → later value transaction)
    (afterFailed : ∀ transaction, failed transaction → laterFailed transaction) :
    server.Triple stronger program later laterFailed where
  returns ended holds := after _ _ (triple.returns ended (before _ holds))
  raises ended holds := afterFailed _ (triple.raises ended (before _ holds))

theorem triple_change {update : Memory → Memory}
    {post : Unit → Transaction World Memory Connection Statement Env → Prop}
    (kept : ∀ transaction, pre transaction →
      post () { transaction with memory := update transaction.memory }) :
    server.Triple pre (.change update) post failed where
  returns := by
    rintro transaction _ _ ⟨_, rfl⟩ before
    exact kept _ before
  raises := by
    rintro transaction error after ⟨same, _⟩
    cases same

theorem triple_send {statement : Statement}
    {post : Answer statement → Transaction World Memory Connection Statement Env → Prop}
    (returns : ∀ {transaction answer after},
      server.Sends statement transaction (.ok answer) after → pre transaction → post answer after)
    (raises : ∀ {transaction error after},
      server.Sends statement transaction (.error error) after → pre transaction → failed after) :
    server.Triple pre (.send statement) post failed where
  returns ended := returns (ends_send.mp ended)
  raises ended := raises (ends_send.mp ended)

end Server

end Fristenwaechter.Library
