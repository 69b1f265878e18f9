import Mathlib.Data.List.Basic
import Fristenwaechter.Library.Program

/-!
Owns the interleaving of transactions over one shared world. Every open
transaction is a program with a client-side memory, a server-side connection and
the trace of the statements it has sent; a scheduler picks one of them and lets
it send its next statement, end, or be aborted from outside. Only an ended
program that did not raise changes the world beyond the passing of time.

A server says what a statement does (`perform`, which may block) and what time does
to the world (`advance`); an engine adds the requests and what a commit does
(`commit`). The steps are executable, so a concrete schedule can be evaluated.
-/

namespace Fristenwaechter.Library

/-- One statement as it was sent: the world it saw, the other connections, the session
that sent it and the choices the environment made for it. -/
structure Entry (World Memory Connection Statement Env : Type) where
  world : World
  others : List Connection
  memory : Memory
  connection : Connection
  statement : Statement
  env : Env

/-- The state of one session besides the program it still has to run. The trace
is a history variable: no statement reads it. -/
structure Transaction (World Memory Connection Statement Env : Type) where
  memory : Memory
  connection : Connection
  trace : List (Entry World Memory Connection Statement Env)

/-- A server with its statements: what a statement does and how time passes. -/
structure Server (World Memory Connection Statement : Type) (Answer : Statement → Type)
    (Env Error : Type) where
  /-- The environment choices that are possible in a world. -/
  admissible : World → Env → Bool
  /-- Time passes while a statement runs. -/
  advance : World → Env → World
  /-- One statement; `none` while it has to wait for one of the `others`. -/
  perform : World → Env → List Connection → Memory → Connection →
    (statement : Statement) → Option (Except Error (Answer statement) × Memory × Connection)

/-- A server with the requests that are sent to it. -/
structure Engine (World Memory Connection Statement : Type) (Answer : Statement → Type)
    (Env Error Ref Request Result : Type) extends
    Server World Memory Connection Statement Answer Env Error where
  /-- What a request runs. -/
  program : Request → Program Memory Statement Answer Error Result
  /-- The memory and the connection a request starts with. -/
  connect : World → Request → Memory × Connection
  /-- The lockable things a connection holds, each with the world it was locked in. -/
  held : Connection → List (Ref × World)
  /-- The world after the connection's work has been committed. -/
  commit : World → Connection → World

section Configurations

variable {World Memory Connection Statement : Type} {Answer : Statement → Type}
variable {Env Error Ref Request Result : Type}

structure Running (World Memory Connection Statement : Type) (Answer : Statement → Type)
    (Env Error Request Result : Type) where
  request : Request
  transaction : Transaction World Memory Connection Statement Env
  program : Program Memory Statement Answer Error Result

/-- A transaction that is over: `outcome` is `none` when it was aborted from
outside, and `world` is the world just before its end. -/
structure Ended (World Memory Connection Statement Env Error Request Result : Type) where
  request : Request
  transaction : Transaction World Memory Connection Statement Env
  world : World
  outcome : Option (Except Error Result)

/-- The whole system: committed world, open transactions and, as a history
variable, the ended ones in order. -/
structure Config (World Memory Connection Statement : Type) (Answer : Statement → Type)
    (Env Error Request Result : Type) where
  world : World
  running : List (Running World Memory Connection Statement Answer Env Error Request Result)
  ended : List (Ended World Memory Connection Statement Env Error Request Result)

/-- What a scheduler may do next. -/
inductive Choice (Env Request : Type) where
  | start (request : Request)
  | run (index : Nat) (env : Env)
  | finish (index : Nat)
  | abort (index : Nat)

namespace Engine

variable (engine : Engine World Memory Connection Statement Answer Env Error Ref Request Result)

def opening (world : World) (request : Request) :
    Transaction World Memory Connection Statement Env :=
  ⟨(engine.connect world request).1, (engine.connect world request).2, []⟩

def heldRefs (connection : Connection) : List Ref :=
  (engine.held connection).map Prod.fst

/-- Let one open transaction take its next step. -/
def advanceOne (world : World) (others : List Connection) (env : Env)
    (running : Running World Memory Connection Statement Answer Env Error Request Result) :
    Option (World × Running World Memory Connection Statement Answer Env Error Request Result) :=
  match running.program with
  | .done _ => none
  | .raise _ => none
  | .inspect next =>
      some (world, { running with program := next running.transaction.memory })
  | .modify change next =>
      some (world,
        { running with
          program := next
          transaction :=
            { running.transaction with memory := change running.transaction.memory } })
  | .call statement next =>
      if engine.admissible world env then
        match engine.perform world env others running.transaction.memory
            running.transaction.connection statement with
        | none => none
        | some (answer, memory, connection) =>
            some (engine.advance world env,
              { running with
                program := next answer
                transaction :=
                  ⟨memory, connection, running.transaction.trace ++
                    [⟨world, others, running.transaction.memory,
                      running.transaction.connection, statement, env⟩]⟩ })
      else none

/-- The world and the outcome when an open transaction ends by itself. -/
def close (world : World)
    (running : Running World Memory Connection Statement Answer Env Error Request Result) :
    Option (World × Except Error Result) :=
  match running.program with
  | .done result => some (engine.commit world running.transaction.connection, .ok result)
  | .raise error => some (world, .error error)
  | _ => none

/-- The world an ended transaction leaves behind. -/
def leave (ended : Ended World Memory Connection Statement Env Error Request Result) : World :=
  match ended.outcome with
  | some (.ok _) => engine.commit ended.world ended.transaction.connection
  | _ => ended.world

def step (config : Config World Memory Connection Statement Answer Env Error Request Result) :
    Choice Env Request →
    Option (Config World Memory Connection Statement Answer Env Error Request Result)
  | .start request =>
      some { config with
        running := config.running ++
          [⟨request, engine.opening config.world request, engine.program request⟩] }
  | .run index env => do
      let running ← config.running[index]?
      let others := (config.running.eraseIdx index).map (·.transaction.connection)
      let (world, next) ← engine.advanceOne config.world others env running
      return { config with world := world, running := config.running.set index next }
  | .finish index => do
      let running ← config.running[index]?
      let (world, outcome) ← engine.close config.world running
      return ⟨world, config.running.eraseIdx index,
        config.ended ++ [⟨running.request, running.transaction, config.world, some outcome⟩]⟩
  | .abort index => do
      let running ← config.running[index]?
      return { config with
        running := config.running.eraseIdx index
        ended := config.ended ++
          [⟨running.request, running.transaction, config.world, none⟩] }

/-- Run a whole schedule while every step passes a check. -/
def checkedSchedule
    (check : Config World Memory Connection Statement Answer Env Error Request Result →
      Choice Env Request → Bool)
    (config : Config World Memory Connection Statement Answer Env Error Request Result) :
    List (Choice Env Request) →
    Option (Config World Memory Connection Statement Answer Env Error Request Result)
  | [] => some config
  | choice :: rest =>
      if check config choice then
        (engine.step config choice).bind fun next => checkedSchedule check next rest
      else none

def schedule (config : Config World Memory Connection Statement Answer Env Error Request Result)
    (choices : List (Choice Env Request)) :
    Option (Config World Memory Connection Statement Answer Env Error Request Result) :=
  engine.checkedSchedule (fun _ _ => true) config choices

end Engine

/-- Which runs are looked at: the requests that may start, the statements that
may be sent, the commits and the aborts that may happen. -/
structure Policy (World Memory Connection Statement Env Request : Type) where
  starts : World → Request → Prop
  calls : Request → Entry World Memory Connection Statement Env → Prop
  commits : Request → World → Transaction World Memory Connection Statement Env → Prop
  aborts : Request → World → Transaction World Memory Connection Statement Env → Prop

namespace Policy

variable (policy : Policy World Memory Connection Statement Env Request)

/-- Every run is looked at. -/
def unrestricted : Policy World Memory Connection Statement Env Request where
  starts _ _ := True
  calls _ _ := True
  commits _ _ _ := True
  aborts _ _ _ := True

/-- The policy's verdict on one step. -/
def Allows (config : Config World Memory Connection Statement Answer Env Error Request Result) :
    Choice Env Request → Prop
  | .start request => policy.starts config.world request
  | .run index env =>
      ∀ running ∈ config.running[index]?, ∀ statement next,
        running.program = .call statement next →
        policy.calls running.request
          ⟨config.world, (config.running.eraseIdx index).map (·.transaction.connection),
            running.transaction.memory, running.transaction.connection, statement, env⟩
  | .finish index =>
      ∀ running ∈ config.running[index]?, ∀ result, running.program = .done result →
        policy.commits running.request config.world running.transaction
  | .abort index =>
      ∀ running ∈ config.running[index]?,
        policy.aborts running.request config.world running.transaction

/-- An executable verdict on one step, from verdicts on starts, calls, commits and
aborts. -/
def check (starts : World → Request → Bool)
    (calls : Request → Entry World Memory Connection Statement Env → Bool)
    (commits : Request → World → Transaction World Memory Connection Statement Env → Bool)
    (aborts : Bool)
    (config : Config World Memory Connection Statement Answer Env Error Request Result) :
    Choice Env Request → Bool
  | .start request => starts config.world request
  | .run index env =>
      config.running[index]?.all fun running =>
        match running.program with
        | .call statement _ =>
            calls running.request
              ⟨config.world, (config.running.eraseIdx index).map (·.transaction.connection),
                running.transaction.memory, running.transaction.connection, statement, env⟩
        | _ => true
  | .finish index =>
      config.running[index]?.all fun running =>
        match running.program with
        | .done _ => commits running.request config.world running.transaction
        | _ => true
  | .abort _ => aborts

variable {policy}

theorem allows_of_check {starts : World → Request → Bool}
    {calls : Request → Entry World Memory Connection Statement Env → Bool}
    {commits : Request → World → Transaction World Memory Connection Statement Env → Bool}
    {aborts : Bool}
    (startsRight : ∀ world request, starts world request = true → policy.starts world request)
    (callsRight : ∀ request entry, calls request entry = true → policy.calls request entry)
    (commitsRight : ∀ request world transaction, commits request world transaction = true →
      policy.commits request world transaction)
    (abortsRight : aborts = true → ∀ request world transaction,
      policy.aborts request world transaction)
    {config : Config World Memory Connection Statement Answer Env Error Request Result}
    {choice : Choice Env Request}
    (checked : check starts calls commits aborts config choice = true) :
    policy.Allows config choice := by
  cases choice with
  | start request => exact startsRight _ _ checked
  | run index env =>
      intro running found statement next isCall
      simp only [check, Option.mem_def.mp found, Option.all_some, isCall] at checked
      exact callsRight _ _ checked
  | finish index =>
      intro running found result isDone
      simp only [check, Option.mem_def.mp found, Option.all_some, isDone] at checked
      exact commitsRight _ _ _ checked
  | abort index => exact fun running _ => abortsRight checked _ _ _

end Policy

/-- The configurations that runs under a policy lead to. -/
inductive Reachable
    (engine : Engine World Memory Connection Statement Answer Env Error Ref Request Result)
    (policy : Policy World Memory Connection Statement Env Request)
    (start : Config World Memory Connection Statement Answer Env Error Request Result) :
    Config World Memory Connection Statement Answer Env Error Request Result → Prop
  | refl : Reachable engine policy start start
  | step {config next choice} (reached : Reachable engine policy start config)
      (allowed : policy.Allows config choice) (stepped : engine.step config choice = some next) :
      Reachable engine policy start next

variable {engine : Engine World Memory Connection Statement Answer Env Error Ref Request Result}
variable {policy : Policy World Memory Connection Statement Env Request}
variable {start config next :
  Config World Memory Connection Statement Answer Env Error Request Result}

theorem Reachable.trans (first : Reachable engine policy start config)
    (second : Reachable engine policy config next) : Reachable engine policy start next := by
  induction second with
  | refl => exact first
  | step _ allowed stepped inductionHypothesis =>
      exact .step inductionHypothesis allowed stepped

theorem Reachable.of_checked {choices : List (Choice Env Request)}
    {check : Config World Memory Connection Statement Answer Env Error Request Result →
      Choice Env Request → Bool}
    (right : ∀ {config choice}, check config choice = true → policy.Allows config choice)
    (ran : engine.checkedSchedule check config choices = some next) :
    Reachable engine policy config next := by
  induction choices generalizing config with
  | nil =>
      cases ran
      exact .refl
  | cons choice rest inductionHypothesis =>
      simp only [Engine.checkedSchedule, Option.ite_none_right_eq_some,
        Option.bind_eq_some_iff] at ran
      obtain ⟨checked, middle, stepped, remaining⟩ := ran
      exact Reachable.trans (.step .refl (right checked) stepped) (inductionHypothesis remaining)

theorem Reachable.of_schedule {choices : List (Choice Env Request)}
    (ran : engine.schedule config choices = some next) :
    Reachable engine Policy.unrestricted config next := by
  refine Reachable.of_checked (fun {config choice} _ => ?_) ran
  cases choice <;> simp [Policy.Allows, Policy.unrestricted]

end Configurations

end Fristenwaechter.Library
