import Fristenwaechter.Library.Discipline

/-!
Owns arguments about two runs. A behaviour of a program is determined by what its
statements have met. A projection of worlds and connections under which every statement is
answered as before turns a behaviour into one of the projected server's; so two behaviours
that meet the same projected worlds are the same up to the projection.
-/

namespace Fristenwaechter.Library

variable {World Memory Connection Statement : Type} {Answer : Statement → Type}
variable {Env Error Ref Request Result Value : Type}

/-- What one statement has met: the world, the other connections, the environment. -/
def Entry.met (entry : Entry World Memory Connection Statement Env) :
    World × List Connection × Env :=
  (entry.world, entry.others, entry.env)

namespace Server

variable {server : Server World Memory Connection Statement Answer Env Error}

/-- A behaviour is determined by what its statements have met: another one whose first
statements have met the same ends there too. -/
theorem ends_functional {program : Program Memory Statement Answer Error Value}
    {transaction first second : Transaction World Memory Connection Statement Env}
    {one two : Except Error Value} (firstEnded : server.Ends program transaction one first)
    (secondEnded : server.Ends program transaction two second)
    (met : first.trace.map Entry.met <+: second.trace.map Entry.met) :
    one = two ∧ first = second := by
  induction program generalizing transaction with
  | done value =>
      obtain ⟨rfl, rfl⟩ := firstEnded
      obtain ⟨rfl, rfl⟩ := secondEnded
      exact ⟨rfl, rfl⟩
  | raise error =>
      obtain ⟨rfl, rfl⟩ := firstEnded
      obtain ⟨rfl, rfl⟩ := secondEnded
      exact ⟨rfl, rfl⟩
  | call statement next inductionHypothesis =>
      obtain ⟨answer, middle, sent, firstEnded⟩ := firstEnded
      obtain ⟨answer', middle', sent', secondEnded⟩ := secondEnded
      obtain ⟨world, env, others, memory, connection, _, performed, rfl⟩ := sent
      obtain ⟨world', env', others', memory', connection', _, performed', rfl⟩ := sent'
      -- both traces go on with the entry of this statement
      obtain ⟨rest, whole⟩ := ends_trace firstEnded
      obtain ⟨rest', whole'⟩ := ends_trace secondEnded
      rw [← whole, ← whole'] at met
      simp only [List.append_assoc, List.map_append, List.prefix_append_right_inj,
        List.singleton_append, List.map_cons, List.cons_prefix_cons, Entry.met,
        Prod.mk.injEq] at met
      obtain ⟨⟨rfl, rfl, rfl⟩, _⟩ := met
      rw [performed] at performed'
      cases performed'
      exact inductionHypothesis answer firstEnded secondEnded
  | inspect next inductionHypothesis => exact inductionHypothesis _ firstEnded secondEnded
  | modify change next inductionHypothesis => exact inductionHypothesis firstEnded secondEnded

theorem ends_first {program : Program Memory Statement Answer Error Value}
    {memory : Memory} {connection : Connection}
    {after : Transaction World Memory Connection Statement Env} {outcome : Except Error Value}
    {entry : Entry World Memory Connection Statement Env}
    (ended : server.Ends program ⟨memory, connection, []⟩ outcome after)
    (first : after.trace.head? = some entry) : entry.connection = connection := by
  induction program generalizing memory with
  | done value =>
      obtain ⟨rfl, rfl⟩ := ended
      cases first
  | raise error =>
      obtain ⟨rfl, rfl⟩ := ended
      cases first
  | call statement next _ =>
      obtain ⟨_, _, ⟨_, _, _, _, _, _, _, rfl⟩, ended⟩ := ended
      obtain ⟨rest, whole⟩ := ends_trace ended
      rw [← whole] at first
      cases first
      rfl
  | inspect next inductionHypothesis => exact inductionHypothesis _ ended
  | modify change next inductionHypothesis => exact inductionHypothesis ended

/-- Two behaviours that meet the same for as long as the first one goes are alike, whatever
they start on if they send nothing. -/
theorem ends_alike {program : Program Memory Statement Answer Error Value}
    {memory : Memory} {connection connection' : Connection}
    {first second : Transaction World Memory Connection Statement Env}
    {one two : Except Error Value}
    (firstEnded : server.Ends program ⟨memory, connection, []⟩ one first)
    (secondEnded : server.Ends program ⟨memory, connection', []⟩ two second)
    (met : first.trace.map Entry.met <+: second.trace.map Entry.met)
    (opened : first.trace ≠ [] → connection = connection') :
    one = two ∧ (first = second ∨
      first.connection = connection ∧ second.connection = connection') := by
  induction program generalizing memory with
  | done value =>
      obtain ⟨rfl, rfl⟩ := firstEnded
      obtain ⟨rfl, rfl⟩ := secondEnded
      exact ⟨rfl, .inr ⟨rfl, rfl⟩⟩
  | raise error =>
      obtain ⟨rfl, rfl⟩ := firstEnded
      obtain ⟨rfl, rfl⟩ := secondEnded
      exact ⟨rfl, .inr ⟨rfl, rfl⟩⟩
  | call statement next _ =>
      have same : connection = connection' := by
        refine opened fun nothing => ?_
        obtain ⟨_, _, ⟨_, _, _, _, _, _, _, rfl⟩, ended⟩ := firstEnded
        obtain ⟨rest, whole⟩ := ends_trace ended
        simp [nothing] at whole
      subst same
      obtain ⟨outcome, transaction⟩ := ends_functional firstEnded secondEnded met
      exact ⟨outcome, .inl transaction⟩
  | inspect next inductionHypothesis => exact inductionHypothesis _ firstEnded secondEnded
  | modify change next inductionHypothesis => exact inductionHypothesis firstEnded secondEnded

end Server

/-! ### Projections -/

/-- A view of worlds and connections. -/
structure Projection (World Connection : Type) where
  world : World → World
  connection : Connection → Connection

namespace Projection

variable (projection : Projection World Connection)

/-- A statement as it would be sent to the projected world, with nobody else around. -/
def entry (entry : Entry World Memory Connection Statement Env) :
    Entry World Memory Connection Statement Env where
  world := projection.world entry.world
  others := []
  memory := entry.memory
  connection := projection.connection entry.connection
  statement := entry.statement
  env := entry.env

/-- The transaction with its connection and its history projected. -/
def transaction (transaction : Transaction World Memory Connection Statement Env) :
    Transaction World Memory Connection Statement Env where
  memory := transaction.memory
  connection := projection.connection transaction.connection
  trace := transaction.trace.map projection.entry

theorem met (transaction : Transaction World Memory Connection Statement Env) :
    (projection.transaction transaction).trace.map Entry.met =
      transaction.trace.map fun entry => (projection.world entry.world, [], entry.env) := by
  rw [Projection.transaction, List.map_map]
  rfl

/-- The statement is answered alike in the projected world, and its effect is projected. -/
def Answers (server : Server World Memory Connection Statement Answer Env Error)
    (entry : Entry World Memory Connection Statement Env) : Prop :=
  server.admissible (projection.world entry.world) entry.env = true ∧
  ∀ answer memory connection,
    server.perform entry.world entry.env entry.others entry.memory entry.connection
        entry.statement = some (answer, memory, connection) →
      server.perform (projection.world entry.world) entry.env [] entry.memory
        (projection.connection entry.connection) entry.statement =
          some (answer, memory, projection.connection connection)

variable {projection}
variable {server : Server World Memory Connection Statement Answer Env Error}

/-- **Simulation.** If every statement of a behaviour is answered alike in the projected
worlds, the projected behaviour is one of the same program. -/
theorem ends (projection : Projection World Connection)
    {program : Program Memory Statement Answer Error Value}
    {transaction after : Transaction World Memory Connection Statement Env}
    {outcome : Except Error Value} (ended : server.Ends program transaction outcome after)
    (answers : ∀ entry ∈ after.trace, projection.Answers server entry) :
    server.Ends program (projection.transaction transaction) outcome
      (projection.transaction after) := by
  induction program generalizing transaction with
  | done value =>
      obtain ⟨rfl, rfl⟩ := ended
      exact ⟨rfl, rfl⟩
  | raise error =>
      obtain ⟨rfl, rfl⟩ := ended
      exact ⟨rfl, rfl⟩
  | call statement next inductionHypothesis =>
      obtain ⟨answer, middle, ⟨world, env, others, memory, connection, _, performed, rfl⟩, ended⟩ :=
        ended
      have sent := (Server.ends_trace ended).subset (List.mem_append_right _ List.mem_cons_self)
      obtain ⟨possible, alike⟩ := answers _ sent
      refine ⟨answer, _, ⟨_, _, _, memory, _, possible, alike _ _ _ performed, rfl⟩, ?_⟩
      have later := inductionHypothesis answer ended
      rw [Projection.transaction, List.map_append] at later
      exact later
  | inspect next inductionHypothesis => exact inductionHypothesis _ ended
  | modify change next inductionHypothesis => exact inductionHypothesis ended

end Projection

/-! ### Statements of ready connections -/

section Ready

variable {engine : Engine World Memory Connection Statement Answer Env Error Ref Request Result}
variable {policy : Policy World Memory Connection Statement Env Request}
variable {isolation : Isolation World Connection Ref}
variable {Inv : World → Prop} {Evolves : World → World → Prop}
variable {start config :
  Config World Memory Connection Statement Answer Env Error Request Result}

/-- The runs in which every statement is sent on a connection that could be committed. -/
def Policy.ready (policy : Policy World Memory Connection Statement Env Request)
    (isolation : Isolation World Connection Ref) :
    Policy World Memory Connection Statement Env Request :=
  { policy with
    calls := fun request entry =>
      policy.calls request entry ∧ isolation.Ready entry.world entry.connection }

/-- A discipline makes every connection ready at each of its statements. -/
theorem Reachable.ready (laws : Laws engine isolation)
    (discipline : Discipline engine policy isolation Inv Evolves)
    (sound : Sound engine policy isolation Inv Evolves start)
    (reached : Reachable engine policy start config) :
    Reachable engine (policy.ready isolation) start config := by
  induction reached with
  | refl => exact .refl
  | @step middle next choice earlier allowed stepped inductionHypothesis =>
      refine .step inductionHypothesis ?_ stepped
      obtain ⟨current, _⟩ := sound.reachable laws discipline earlier
      cases choice with
      | start request => exact allowed
      | run index env =>
          intro running found statement next isCall
          obtain ⟨_, _, _, chain, _⟩ := current.live running (List.mem_of_getElem? found)
          exact ⟨allowed running found statement next isCall, chain.ready⟩
      | finish index => exact allowed
      | abort index => exact allowed

end Ready

end Fristenwaechter.Library
