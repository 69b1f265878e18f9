import Fristenwaechter.Library.Engine

/-!
Owns the behaviours of one program on its own: `Ends` relates a program and the
transaction it starts from to every outcome and transaction it can end with when
each of its statements may see an arbitrary world. What the worlds have to do
with each other is not decided here; `Library.Discipline` reads it off the trace.

The composition rules say how a program's behaviours follow from those of its
parts, so a function of a program is analysed once and its callers use the result.
`Preserves` is the rule for what every statement keeps, whatever the answers are.
-/

namespace Fristenwaechter.Library

variable {World Memory Connection Statement : Type} {Answer : Statement → Type}
variable {Env Error Value Final : Type}

namespace Server

variable (server : Server World Memory Connection Statement Answer Env Error)

/-- One statement is sent in some world and answered. -/
def Sends (statement : Statement) (transaction : Transaction World Memory Connection Statement Env)
    (answer : Except Error (Answer statement))
    (after : Transaction World Memory Connection Statement Env) : Prop :=
  ∃ world env others memory connection,
    server.admissible world env = true ∧
    server.perform world env others transaction.memory transaction.connection statement =
      some (answer, memory, connection) ∧
    after = ⟨memory, connection, transaction.trace ++
      [⟨world, others, transaction.memory, transaction.connection, statement, env⟩]⟩

/-- The program can end with `outcome`, leaving the transaction `after`. -/
def Ends : Program Memory Statement Answer Error Value →
    Transaction World Memory Connection Statement Env → Except Error Value →
    Transaction World Memory Connection Statement Env → Prop
  | .done value, transaction, outcome, after => outcome = .ok value ∧ after = transaction
  | .raise error, transaction, outcome, after => outcome = .error error ∧ after = transaction
  | .inspect next, transaction, outcome, after =>
      Ends (next transaction.memory) transaction outcome after
  | .modify change next, transaction, outcome, after =>
      Ends next { transaction with memory := change transaction.memory } outcome after
  | .call statement next, transaction, outcome, after =>
      ∃ answer middle, server.Sends statement transaction answer middle ∧
        Ends (next answer) middle outcome after

variable {server}
variable {transaction after : Transaction World Memory Connection Statement Env}

theorem ends_done {value : Value} {outcome : Except Error Value} :
    server.Ends (.done value) transaction outcome after ↔
      outcome = .ok value ∧ after = transaction :=
  Iff.rfl

/-- A composed program ends where its second part ends, or where its first part
raised. -/
theorem ends_bind {program : Program Memory Statement Answer Error Value}
    {next : Value → Program Memory Statement Answer Error Final} {outcome : Except Error Final} :
    server.Ends (program.bind next) transaction outcome after ↔
      (∃ value middle, server.Ends program transaction (.ok value) middle ∧
        server.Ends (next value) middle outcome after) ∨
      ∃ error, outcome = .error error ∧ server.Ends program transaction (.error error) after := by
  induction program generalizing transaction with
  | done value => simp [Program.bind, Ends]
  | raise error => simp [Program.bind, Ends]
  | call statement rest inductionHypothesis =>
      simp only [Program.bind, Ends, inductionHypothesis]
      constructor
      · rintro ⟨answer, middle, sent, ⟨value, last, first, second⟩ | ⟨error, failed, first⟩⟩
        · exact .inl ⟨value, last, ⟨answer, middle, sent, first⟩, second⟩
        · exact .inr ⟨error, failed, answer, middle, sent, first⟩
      · rintro (⟨value, last, ⟨answer, middle, sent, first⟩, second⟩ |
          ⟨error, failed, answer, middle, sent, first⟩)
        · exact ⟨answer, middle, sent, .inl ⟨value, last, first, second⟩⟩
        · exact ⟨answer, middle, sent, .inr ⟨error, failed, first⟩⟩
  | inspect rest inductionHypothesis =>
      simp only [Program.bind, Ends]
      exact inductionHypothesis _
  | modify change rest inductionHypothesis =>
      simp only [Program.bind, Ends]
      exact inductionHypothesis

/-- A handled program ends where it ended by itself, or where the handler of its
error ends. -/
theorem ends_handle {program : Program Memory Statement Answer Error Value}
    {handler : Error → Program Memory Statement Answer Error Value}
    {outcome : Except Error Value} :
    server.Ends (program.handle handler) transaction outcome after ↔
      (∃ value, outcome = .ok value ∧ server.Ends program transaction (.ok value) after) ∨
      ∃ error middle, server.Ends program transaction (.error error) middle ∧
        server.Ends (handler error) middle outcome after := by
  induction program generalizing transaction with
  | done value =>
      simp only [Program.handle, Ends, Except.ok.injEq, reduceCtorEq, false_and, exists_false,
        or_false]
      constructor
      · rintro ⟨same, unchanged⟩
        exact ⟨value, same, rfl, unchanged⟩
      · rintro ⟨_, same, rfl, unchanged⟩
        exact ⟨same, unchanged⟩
  | raise error => simp [Program.handle, Ends]
  | call statement rest inductionHypothesis =>
      simp only [Program.handle, Ends, inductionHypothesis]
      constructor
      · rintro ⟨answer, middle, sent, ⟨value, same, first⟩ | ⟨error, last, first, second⟩⟩
        · exact .inl ⟨value, same, answer, middle, sent, first⟩
        · exact .inr ⟨error, last, ⟨answer, middle, sent, first⟩, second⟩
      · rintro (⟨value, same, answer, middle, sent, first⟩ |
          ⟨error, last, ⟨answer, middle, sent, first⟩, second⟩)
        · exact ⟨answer, middle, sent, .inl ⟨value, same, first⟩⟩
        · exact ⟨answer, middle, sent, .inr ⟨error, last, first, second⟩⟩
  | inspect rest inductionHypothesis =>
      simp only [Program.handle, Ends]
      exact inductionHypothesis _
  | modify change rest inductionHypothesis =>
      simp only [Program.handle, Ends]
      exact inductionHypothesis

theorem ends_send {statement : Statement} {outcome : Except Error (Answer statement)} :
    server.Ends (.send statement) transaction outcome after ↔
      server.Sends statement transaction outcome after := by
  simp only [Program.send, Ends]
  constructor
  · rintro ⟨answer, middle, sent, ended⟩
    cases answer <;> obtain ⟨rfl, rfl⟩ := ended <;> exact sent
  · intro sent
    refine ⟨outcome, after, sent, ?_⟩
    cases outcome <;> exact ⟨rfl, rfl⟩

theorem ends_memory {outcome : Except Error Memory} :
    server.Ends .memory transaction outcome after ↔
      outcome = .ok transaction.memory ∧ after = transaction :=
  Iff.rfl

theorem ends_trace {program : Program Memory Statement Answer Error Value}
    {outcome : Except Error Value} (ended : server.Ends program transaction outcome after) :
    transaction.trace <+: after.trace := by
  induction program generalizing transaction with
  | done value =>
      obtain ⟨_, rfl⟩ := ended
      exact List.prefix_rfl
  | raise error =>
      obtain ⟨_, rfl⟩ := ended
      exact List.prefix_rfl
  | call statement rest inductionHypothesis =>
      obtain ⟨answer, middle, ⟨world, env, others, memory, connection, _, _, rfl⟩, ended⟩ := ended
      exact (List.prefix_append _ _).trans (inductionHypothesis answer ended)
  | inspect rest inductionHypothesis => exact inductionHypothesis _ ended
  | modify change rest inductionHypothesis =>
      have later : server.Ends rest { transaction with memory := change transaction.memory }
          outcome after := ended
      have grown := inductionHypothesis later
      exact grown

theorem ends_untraced {program : Program Memory Statement Answer Error Value}
    {outcome : Except Error Value}
    {earlier later : List (Entry World Memory Connection Statement Env)}
    {memory : Memory} {connection : Connection}
    (ended : server.Ends program ⟨memory, connection, earlier ++ later⟩ outcome after) :
    ∃ rest, after.trace = earlier ++ rest ∧
      server.Ends program ⟨memory, connection, later⟩ outcome
        ⟨after.memory, after.connection, rest⟩ := by
  induction program generalizing memory connection later with
  | done value =>
      obtain ⟨rfl, rfl⟩ := ended
      exact ⟨later, rfl, rfl, rfl⟩
  | raise error =>
      obtain ⟨rfl, rfl⟩ := ended
      exact ⟨later, rfl, rfl, rfl⟩
  | call statement next inductionHypothesis =>
      obtain ⟨answer, middle, ⟨world, env, others, memory', connection', possible, performed, rfl⟩,
        ended⟩ := ended
      rw [List.append_assoc] at ended
      obtain ⟨rest, whole, ended⟩ := inductionHypothesis answer ended
      exact ⟨rest, whole, answer, _,
        ⟨world, env, others, memory', connection', possible, performed, rfl⟩, ended⟩
  | inspect next inductionHypothesis => exact inductionHypothesis memory ended
  | modify change next inductionHypothesis => exact inductionHypothesis ended

/-! ### Programs that never wait -/

/-- Run a program with no other connection open: its statements meet the given worlds and
environment choices one after the other. -/
def play (server : Server World Memory Connection Statement Answer Env Error)
    (program : Program Memory Statement Answer Error Value)
    (transaction : Transaction World Memory Connection Statement Env)
    (moments : Nat → World × Env) :
    Option (Except Error Value × Transaction World Memory Connection Statement Env) :=
  match program with
  | .done value => some (.ok value, transaction)
  | .raise error => some (.error error, transaction)
  | .inspect next => play server (next transaction.memory) transaction moments
  | .modify change next =>
      play server next { transaction with memory := change transaction.memory } moments
  | .call statement next =>
      match server.perform (moments 0).1 (moments 0).2 [] transaction.memory
          transaction.connection statement with
      | none => none
      | some (answer, memory, connection) =>
          play server (next answer)
            ⟨memory, connection, transaction.trace ++ [⟨(moments 0).1, [], transaction.memory,
              transaction.connection, statement, (moments 0).2⟩]⟩
            fun index => moments (index + 1)

theorem play_ends {program : Program Memory Statement Answer Error Value}
    {outcome : Except Error Value} {moments : Nat → World × Env}
    (possible : ∀ index, server.admissible (moments index).1 (moments index).2 = true)
    (played : server.play program transaction moments = some (outcome, after)) :
    server.Ends program transaction outcome after := by
  induction program generalizing transaction moments with
  | done value =>
      cases played
      exact ⟨rfl, rfl⟩
  | raise error =>
      cases played
      exact ⟨rfl, rfl⟩
  | call statement next inductionHypothesis =>
      rw [play] at played
      split at played
      · cases played
      · rename_i answer memory connection performed
        refine ⟨answer, _, ⟨_, _, _, memory, connection, possible 0, performed, rfl⟩, ?_⟩
        exact inductionHypothesis answer (fun index => possible (index + 1)) played
  | inspect next inductionHypothesis => exact inductionHypothesis _ possible played
  | modify change next inductionHypothesis => exact inductionHypothesis possible played

/-- A played program meets the given moments, and nobody else. -/
theorem play_meets {program : Program Memory Statement Answer Error Value}
    {outcome : Except Error Value} {moments : Nat → World × Env}
    (played : server.play program transaction moments = some (outcome, after)) :
    ∀ entry ∈ after.trace, entry ∈ transaction.trace ∨
      entry.others = [] ∧ ∃ index, (entry.world, entry.env) = moments index := by
  induction program generalizing transaction moments with
  | done value =>
      cases played
      exact fun entry member => .inl member
  | raise error =>
      cases played
      exact fun entry member => .inl member
  | call statement next inductionHypothesis =>
      rw [play] at played
      split at played
      · cases played
      · intro entry member
        rcases inductionHypothesis _ played entry member with earlier | ⟨alone, index, met⟩
        · rcases List.mem_append.mp earlier with before | now
          · exact .inl before
          · rw [List.mem_singleton.mp now]
            exact .inr ⟨rfl, 0, rfl⟩
        · exact .inr ⟨alone, index + 1, met⟩
  | inspect next inductionHypothesis => exact inductionHypothesis _ played
  | modify change next inductionHypothesis =>
      rw [play] at played
      have met := inductionHypothesis played
      exact met

theorem play_isSome {program : Program Memory Statement Answer Error Value}
    {moments : Nat → World × Env}
    (alone : ∀ world env memory connection statement,
      (server.perform world env [] memory connection statement).isSome = true) :
    (server.play program transaction moments).isSome = true := by
  induction program generalizing transaction moments with
  | done value => rfl
  | raise error => rfl
  | call statement next inductionHypothesis =>
      rw [play]
      split
      · rename_i waits
        have answered := alone (moments 0).1 (moments 0).2 transaction.memory
          transaction.connection statement
        rw [waits] at answered
        cases answered
      · exact inductionHypothesis _
  | inspect next inductionHypothesis => exact inductionHypothesis _
  | modify change next inductionHypothesis => exact inductionHypothesis

/-! ### Invariants of a behaviour -/

/-- Every end of the program keeps the invariant. -/
def Preserves (server : Server World Memory Connection Statement Answer Env Error)
    (invariant : Transaction World Memory Connection Statement Env → Prop)
    (program : Program Memory Statement Answer Error Value) : Prop :=
  ∀ transaction outcome after, server.Ends program transaction outcome after →
    invariant transaction → invariant after

variable {invariant : Transaction World Memory Connection Statement Env → Prop}

theorem preserves_done (value : Value) : server.Preserves invariant (.done value) := by
  rintro transaction outcome after ⟨_, rfl⟩ holds
  exact holds

theorem preserves_raise (error : Error) :
    server.Preserves invariant (.raise error : Program Memory Statement Answer Error Value) := by
  rintro transaction outcome after ⟨_, rfl⟩ holds
  exact holds

theorem preserves_bind {program : Program Memory Statement Answer Error Value}
    {next : Value → Program Memory Statement Answer Error Final}
    (first : server.Preserves invariant program)
    (second : ∀ value, server.Preserves invariant (next value)) :
    server.Preserves invariant (program.bind next) := by
  intro transaction outcome after ended holds
  rcases ends_bind.mp ended with ⟨value, middle, one, two⟩ | ⟨error, _, one⟩
  · exact second value middle outcome after two (first transaction _ middle one holds)
  · exact first transaction _ after one holds

theorem preserves_bind_of {program : Program Memory Statement Answer Error Value}
    {next : Value → Program Memory Statement Answer Error Final} {fact : Value → Prop}
    (first : server.Preserves invariant program)
    (returns : ∀ {transaction value after}, server.Ends program transaction (.ok value) after →
      fact value)
    (second : ∀ value, fact value → server.Preserves invariant (next value)) :
    server.Preserves invariant (program.bind next) := by
  intro transaction outcome after ended holds
  rcases ends_bind.mp ended with ⟨value, middle, one, two⟩ | ⟨error, _, one⟩
  · exact second value (returns one) middle outcome after two (first transaction _ middle one holds)
  · exact first transaction _ after one holds

theorem preserves_handle {program : Program Memory Statement Answer Error Value}
    {handler : Error → Program Memory Statement Answer Error Value}
    (first : server.Preserves invariant program)
    (second : ∀ error, server.Preserves invariant (handler error)) :
    server.Preserves invariant (program.handle handler) := by
  intro transaction outcome after ended holds
  rcases ends_handle.mp ended with ⟨value, _, one⟩ | ⟨error, middle, one, two⟩
  · exact first transaction _ after one holds
  · exact second error middle outcome after two (first transaction _ middle one holds)

theorem preserves_inspect {next : Memory → Program Memory Statement Answer Error Value}
    (kept : ∀ memory, server.Preserves invariant (next memory)) :
    server.Preserves invariant (.inspect next) :=
  fun transaction => kept transaction.memory transaction

theorem preserves_send {statement : Statement}
    (kept : ∀ transaction answer after, server.Sends statement transaction answer after →
      invariant transaction → invariant after) :
    server.Preserves invariant (.send statement) :=
  fun transaction outcome after ended => kept transaction outcome after (ends_send.mp ended)

theorem preserves_change {update : Memory → Memory}
    (kept : ∀ transaction, invariant transaction →
      invariant { transaction with memory := update transaction.memory }) :
    server.Preserves invariant (.change update) := by
  rintro transaction outcome after ⟨_, rfl⟩ holds
  exact kept transaction holds

theorem preserves_forEach {Item : Type} {items : List Item}
    {body : Item → Program Memory Statement Answer Error Unit}
    (kept : ∀ item ∈ items, server.Preserves invariant (body item)) :
    server.Preserves invariant (.forEach items body) := by
  induction items with
  | nil => exact preserves_done ()
  | cons item rest inductionHypothesis =>
      exact preserves_bind (kept item (by simp)) fun _ =>
        inductionHypothesis fun other member => kept other (by simp [member])

/-- What no statement and no change of the memory breaks is kept by every program. -/
theorem preserves_any
    (statements : ∀ {transaction : Transaction World Memory Connection Statement Env}
      {statement answer after}, server.Sends statement transaction answer after →
        invariant transaction → invariant after)
    (changes : ∀ {transaction : Transaction World Memory Connection Statement Env}
      (update : Memory → Memory), invariant transaction →
        invariant { transaction with memory := update transaction.memory })
    (program : Program Memory Statement Answer Error Value) :
    server.Preserves invariant program := by
  induction program with
  | done value => exact preserves_done value
  | raise error => exact preserves_raise error
  | call statement next inductionHypothesis =>
      rintro transaction outcome after ⟨answer, middle, sent, ended⟩ holds
      exact inductionHypothesis answer middle outcome after ended (statements sent holds)
  | inspect next inductionHypothesis => exact preserves_inspect inductionHypothesis
  | modify change next inductionHypothesis =>
      intro transaction outcome after ended holds
      exact inductionHypothesis _ outcome after ended (changes change holds)

/-! ### Parts of a behaviour -/

theorem ends_send_bind {statement : Statement}
    {next : Answer statement → Program Memory Statement Answer Error Final}
    {outcome : Except Error Final}
    (ended : server.Ends ((Program.send statement).bind next) transaction outcome after) :
    ∃ (entry : Entry World Memory Connection Statement Env)
      (answer : Except Error (Answer statement)) (memory : Memory) (connection : Connection),
      entry.statement = statement ∧ entry.connection = transaction.connection ∧
      server.perform entry.world entry.env entry.others transaction.memory transaction.connection
        statement = some (answer, memory, connection) ∧
      ((∃ value, answer = .ok value ∧
          server.Ends (next value) ⟨memory, connection, transaction.trace ++ [entry]⟩ outcome
            after) ∨
        ∃ error, answer = .error error ∧ outcome = .error error ∧
          after = ⟨memory, connection, transaction.trace ++ [entry]⟩) := by
  rcases ends_bind.mp ended with ⟨value, middle, first, rest⟩ | ⟨error, same, first⟩
  · obtain ⟨world, env, others, memory, connection, _, performed, rfl⟩ := ends_send.mp first
    exact ⟨_, _, memory, connection, rfl, rfl, performed, .inl ⟨value, rfl, rest⟩⟩
  · obtain ⟨world, env, others, memory, connection, _, performed, rfl⟩ := ends_send.mp first
    exact ⟨_, _, memory, connection, rfl, rfl, performed, .inr ⟨error, rfl, same, rfl⟩⟩

theorem ends_forEach_mem {Item : Type} {items : List Item}
    {body : Item → Program Memory Statement Answer Error Unit}
    (ended : server.Ends (.forEach items body) transaction (.ok ()) after) {item : Item}
    (member : item ∈ items) :
    ∃ earlier rest before middle, server.Ends (.forEach earlier body) transaction (.ok ()) before ∧
      server.Ends (body item) before (.ok ()) middle ∧
      server.Ends (.forEach rest body) middle (.ok ()) after := by
  induction items generalizing transaction with
  | nil => exact absurd member List.not_mem_nil
  | cons first others inductionHypothesis =>
      rcases ends_bind.mp ended with ⟨_, middle, one, remaining⟩ | ⟨_, isError, _⟩
      · rcases List.mem_cons.mp member with rfl | later
        · exact ⟨[], others, transaction, middle, ⟨rfl, rfl⟩, one, remaining⟩
        · obtain ⟨earlier, rest, before, next, prior, own, last⟩ :=
            inductionHypothesis remaining later
          exact ⟨first :: earlier, rest, before, next,
            ends_bind.mpr (.inl ⟨_, middle, one, prior⟩), own, last⟩
      · cases isError

end Server

end Fristenwaechter.Library
