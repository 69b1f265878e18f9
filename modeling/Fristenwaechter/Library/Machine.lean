import Mathlib.Data.List.Basic
import Fristenwaechter.Library.Engine

/-!
Owns two ways of running things one after the other: a program whose statements are
answered at once because nobody else is connected, and a machine that answers a list of
events. Where the events of one key leave the others alone, each key is answered as if the
events of the others had not happened.
-/

namespace Fristenwaechter.Library

/-! ### Programs with nobody else around -/

section Evaluation

variable {World Memory Connection Statement : Type} {Answer : Statement → Type}
variable {Env Error Result Final : Type}
variable (server : Server World Memory Connection Statement Answer Env Error)

/-- What a program ends with when no other connection is open; `none` if a statement has
to wait all the same. -/
def Server.evaluate (world : World) (env : Env) :
    Program Memory Statement Answer Error Result → Memory → Connection →
      Option (Except Error Result × Memory × Connection)
  | .done result, memory, connection => some (.ok result, memory, connection)
  | .raise error, memory, connection => some (.error error, memory, connection)
  | .call statement next, memory, connection =>
      (server.perform world env [] memory connection statement).bind
        fun (answer, memory, connection) => evaluate world env (next answer) memory connection
  | .inspect next, memory, connection => evaluate world env (next memory) memory connection
  | .modify change next, memory, connection => evaluate world env next (change memory) connection

variable {server} {world : World} {env : Env}

theorem Server.evaluate_bind {first : Program Memory Statement Answer Error Result}
    {next : Result → Program Memory Statement Answer Error Final} {memory : Memory}
    {connection : Connection} :
    server.evaluate world env (first >>= next) memory connection =
      (server.evaluate world env first memory connection).bind
        fun (outcome, memory, connection) =>
          match outcome with
          | .ok result => server.evaluate world env (next result) memory connection
          | .error error => some (.error error, memory, connection) := by
  rw [Program.bind_eq_bind]
  induction first generalizing memory connection with
  | done value => rfl
  | raise error => rfl
  | call statement rest inductionHypothesis =>
      simp only [Program.bind, evaluate, Option.bind_assoc]
      exact congrArg _ (funext fun answered => inductionHypothesis answered.1)
  | inspect rest inductionHypothesis => exact inductionHypothesis _
  | modify change rest inductionHypothesis => exact inductionHypothesis

theorem Server.evaluate_send {statement : Statement} {memory : Memory} {connection : Connection} :
    server.evaluate world env (Program.send statement) memory connection =
      server.perform world env [] memory connection statement := by
  simp only [Program.send, evaluate]
  cases server.perform world env [] memory connection statement with
  | none => rfl
  | some answered =>
      obtain ⟨answer | answer, memory, connection⟩ := answered
      · rfl
      · rfl

end Evaluation

/-! ### Machines -/

/-- A machine that answers every event. -/
structure Machine (State Event Output : Type) where
  step : State → Event → Output × State

namespace Machine

variable {State Event Output Key : Type}

/-- The answers to a list of events, and the last state. -/
def run (machine : Machine State Event Output) : State → List Event →
    List (Event × Output) × State
  | state, [] => ([], state)
  | state, event :: rest =>
      let after := run machine (machine.step state event).2 rest
      ((event, (machine.step state event).1) :: after.1, after.2)

@[simp] theorem run_nil (machine : Machine State Event Output) (state : State) :
    machine.run state [] = ([], state) :=
  rfl

theorem run_cons (machine : Machine State Event Output) (state : State) (event : Event)
    (rest : List Event) :
    machine.run state (event :: rest) =
      ((event, (machine.step state event).1) ::
          (machine.run (machine.step state event).2 rest).1,
        (machine.run (machine.step state event).2 rest).2) :=
  rfl

/-- What an event does to the states that agree on a key: it is answered alike in both if it
is the key's own, and else may as well not have happened. -/
structure Separate (machine : Machine State Event Output) (key : Event → Key)
    (Agree : Key → State → State → Prop) : Prop where
  output : ∀ {first second event}, Agree (key event) first second →
    (machine.step first event).1 = (machine.step second event).1
  own : ∀ {first second event}, Agree (key event) first second →
    Agree (key event) (machine.step first event).2 (machine.step second event).2
  other : ∀ {first second event wanted}, key event ≠ wanted → Agree wanted first second →
    Agree wanted (machine.step first event).2 second

variable [DecidableEq Key]

/-- **Keys do not disturb each other.** The events of a key are answered as if there were no
others, and the last states agree on it. -/
theorem Separate.run_filter {machine : Machine State Event Output} {key : Event → Key}
    {Agree : Key → State → State → Prop} (separate : Separate machine key Agree)
    {first second : State} {wanted : Key} (agree : Agree wanted first second)
    (events : List Event) :
    (machine.run first events).1.filter (fun answered => key answered.1 = wanted) =
        (machine.run second (events.filter fun event => key event = wanted)).1 ∧
      Agree wanted (machine.run first events).2
        (machine.run second (events.filter fun event => key event = wanted)).2 := by
  induction events generalizing first second with
  | nil => exact ⟨rfl, agree⟩
  | cons event rest inductionHypothesis =>
      rw [run_cons]
      by_cases same : key event = wanted
      · subst same
        obtain ⟨answers, last⟩ := inductionHypothesis (separate.own agree)
        rw [List.filter_cons_of_pos (by simp), List.filter_cons_of_pos (by simp), run_cons,
          separate.output agree]
        exact ⟨congrArg _ answers, last⟩
      · rw [List.filter_cons_of_neg (by simpa using same),
          List.filter_cons_of_neg (by simpa using same)]
        exact inductionHypothesis (separate.other same agree)

end Machine

end Fristenwaechter.Library
