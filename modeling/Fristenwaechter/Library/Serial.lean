import Mathlib.Logic.Relation
import Fristenwaechter.Library.Discipline

/-!
Owns serial runs: one transaction at a time, each served by the engine with no other
connection open, time passing in between. What is known of a transaction that was
served alone (`Served`) says that only time has passed in the worlds it has seen, and
the rule for serial runs carries a property of the world and the history from one
transaction to the next.
-/

namespace Fristenwaechter.Library

variable {World Memory Connection Statement : Type} {Answer : Statement → Type}
variable {Env Error Ref Request Result : Type}

section Runs

variable (engine : Engine World Memory Connection Statement Answer Env Error Ref Request Result)
variable (isolation : Isolation World Connection Ref)

/-- Only time passes between the two worlds. -/
def Engine.Drifts : World → World → Prop :=
  Relation.ReflTransGen fun before after =>
    ∃ env, engine.admissible before env = true ∧ after = engine.advance before env

/-- A transaction with no other connection open, from its start up to now. -/
inductive Alone (start : World) (request : Request) :
    World → Running World Memory Connection Statement Answer Env Error Request Result → Prop
  | opened :
      Alone start request start
        ⟨request, engine.opening start request, engine.program request⟩
  | moved {world next running after env} (before : Alone start request world running)
      (advanced : engine.advanceOne world [] env running = some (next, after)) :
      Alone start request next after

/-- Runs of one transaction at a time: the world and the ended transactions. -/
inductive Serial (start : World) :
    World → List (Ended World Memory Connection Statement Env Error Request Result) → Prop
  | nothing : Serial start start []
  | waits {world history env} (before : Serial start world history)
      (possible : engine.admissible world env = true) :
      Serial start (engine.advance world env) history
  | served {world now next history request running outcome}
      (before : Serial start world history) (alone : Alone engine world request now running)
      (closed : engine.close now running = some (next, outcome)) :
      Serial start next
        (history ++ [⟨running.request, running.transaction, now, some outcome⟩])
  | aborted {world now history request running} (before : Serial start world history)
      (alone : Alone engine world request now running) :
      Serial start now (history ++ [⟨running.request, running.transaction, now, none⟩])

/-- What is known of an ended transaction that was served alone. -/
structure Served (start : World)
    (ended : Ended World Memory Connection Statement Env Error Request Result) : Prop where
  drifts : engine.Drifts start ended.world
  seen : ∀ entry ∈ ended.transaction.trace,
    entry.others = [] ∧ engine.admissible entry.world entry.env = true ∧
      engine.Drifts start entry.world ∧
      engine.Drifts (engine.advance entry.world entry.env) ended.world
  ordered : ended.transaction.trace.Pairwise fun earlier later =>
    engine.Drifts (engine.advance earlier.world earlier.env) later.world
  ready : isolation.Ready ended.world ended.transaction.connection
  ends : ∀ outcome, ended.outcome = some outcome →
    engine.Ends (engine.program ended.request) (engine.opening start ended.request) outcome
      ended.transaction

/-- Steps of one transaction with no other connection open. -/
def Engine.follow (world : World)
    (running : Running World Memory Connection Statement Answer Env Error Request Result) :
    List Env →
    Option (World × Running World Memory Connection Statement Answer Env Error Request Result)
  | [] => some (world, running)
  | env :: rest =>
      (engine.advanceOne world [] env running).bind fun (next, after) => follow next after rest

/-- Serve a request alone, up to its end. -/
def Engine.serve (world : World) (request : Request) (envs : List Env) :
    Option (World × Ended World Memory Connection Statement Env Error Request Result) := do
  let (now, running) ← engine.follow world
    ⟨request, engine.opening world request, engine.program request⟩ envs
  let (next, outcome) ← engine.close now running
  return (next, ⟨running.request, running.transaction, now, some outcome⟩)

/-- Serve requests one after the other. -/
def Engine.serveAll (world : World) : List (Request × List Env) →
    Option (World × List (Ended World Memory Connection Statement Env Error Request Result))
  | [] => some (world, [])
  | (request, envs) :: rest => do
      let (next, ended) ← engine.serve world request envs
      let (last, history) ← serveAll next rest
      return (last, ended :: history)

end Runs

variable {engine : Engine World Memory Connection Statement Answer Env Error Ref Request Result}
variable {isolation : Isolation World Connection Ref}

theorem Engine.Drifts.refl (world : World) : engine.Drifts world world :=
  Relation.ReflTransGen.refl

theorem Engine.Drifts.trans {first second third : World} (one : engine.Drifts first second)
    (two : engine.Drifts second third) : engine.Drifts first third :=
  Relation.ReflTransGen.trans one two

theorem Engine.Drifts.advance {world : World} {env : Env}
    (possible : engine.admissible world env = true) :
    engine.Drifts world (engine.advance world env) :=
  Relation.ReflTransGen.single ⟨env, possible, rfl⟩

theorem Alone.follow {start world now : World} {request : Request}
    {running after : Running World Memory Connection Statement Answer Env Error Request Result}
    {envs : List Env} (before : Alone engine start request world running)
    (followed : engine.follow world running envs = some (now, after)) :
    Alone engine start request now after := by
  induction envs generalizing world running with
  | nil =>
      cases followed
      exact before
  | cons env rest inductionHypothesis =>
      obtain ⟨⟨next, moved⟩, advanced, remaining⟩ := Option.bind_eq_some_iff.mp followed
      exact inductionHypothesis (.moved before advanced) remaining

theorem Serial.serve {start world next : World} {request : Request} {envs : List Env}
    {history : List (Ended World Memory Connection Statement Env Error Request Result)}
    {ended : Ended World Memory Connection Statement Env Error Request Result}
    (before : Serial engine start world history)
    (ran : engine.serve world request envs = some (next, ended)) :
    Serial engine start next (history ++ [ended]) := by
  simp only [Engine.serve, Option.bind_eq_bind, Option.bind_eq_some_iff] at ran
  obtain ⟨⟨now, running⟩, followed, ⟨last, outcome⟩, closed, same⟩ := ran
  cases same
  exact .served before (Alone.opened.follow followed) closed

theorem Serial.serveAll {start world last : World} {asked : List (Request × List Env)}
    {history more : List (Ended World Memory Connection Statement Env Error Request Result)}
    (before : Serial engine start world history)
    (ran : engine.serveAll world asked = some (last, more)) :
    Serial engine start last (history ++ more) := by
  induction asked generalizing world history more with
  | nil =>
      cases ran
      rwa [List.append_nil]
  | cons first rest inductionHypothesis =>
      simp only [Engine.serveAll, Option.bind_eq_bind, Option.bind_eq_some_iff] at ran
      obtain ⟨⟨next, ended⟩, served, ⟨_, remaining⟩, followed, same⟩ := ran
      cases same
      rw [List.append_cons]
      exact inductionHypothesis (before.serve served) followed

theorem Alone.knows (laws : Laws engine isolation) {start now : World} {request : Request}
    {running : Running World Memory Connection Statement Answer Env Error Request Result}
    (alone : Alone engine start request now running) :
    running.request = request ∧
      engine.Drifts start now ∧
      (∀ entry ∈ running.transaction.trace,
        entry.others = [] ∧ engine.admissible entry.world entry.env = true ∧
          engine.Drifts start entry.world ∧
          engine.Drifts (engine.advance entry.world entry.env) now) ∧
      (running.transaction.trace.Pairwise fun earlier later =>
        engine.Drifts (engine.advance earlier.world earlier.env) later.world) ∧
      isolation.Ready now running.transaction.connection ∧
      ∀ outcome after, engine.Ends running.program running.transaction outcome after →
        engine.Ends (engine.program request) (engine.opening start request) outcome after := by
  induction alone with
  | opened =>
      exact ⟨rfl, .refl start, by simp [Engine.opening], by simp [Engine.opening],
        laws.readyConnect start request, fun _ _ ended => ended⟩
  | @moved world next running after env before advanced inductionHypothesis =>
      obtain ⟨same, drifts, seen, ordered, ready, rest⟩ := inductionHypothesis
      obtain ⟨own, transaction, program⟩ := running
      cases program with
      | done result => simp [Engine.advanceOne] at advanced
      | raise error => simp [Engine.advanceOne] at advanced
      | inspect continuation =>
          simp only [Engine.advanceOne, Option.some.injEq, Prod.mk.injEq] at advanced
          obtain ⟨rfl, rfl⟩ := advanced
          exact ⟨same, drifts, seen, ordered, ready,
            fun outcome after ended => rest outcome after ended⟩
      | modify change continuation =>
          simp only [Engine.advanceOne, Option.some.injEq, Prod.mk.injEq] at advanced
          obtain ⟨rfl, rfl⟩ := advanced
          exact ⟨same, drifts, seen, ordered, ready,
            fun outcome after ended => rest outcome after ended⟩
      | call statement continuation =>
          simp only [Engine.advanceOne] at advanced
          split at advanced
          · rename_i possible
            split at advanced
            · cases advanced
            · rename_i answer memory connection performed
              simp only [Option.some.injEq, Prod.mk.injEq] at advanced
              obtain ⟨rfl, rfl⟩ := advanced
              have later : engine.Drifts world (engine.advance world env) := .advance possible
              refine ⟨same, drifts.trans later, ?_, ?_, laws.readyKept (fun _ _ => laws.advance)
                (laws.readyPerform performed ready), ?_⟩
              · intro entry member
                rcases List.mem_append.mp member with old | new
                · obtain ⟨alone, admissible, after, upTo⟩ := seen entry old
                  exact ⟨alone, admissible, after, upTo.trans later⟩
                · rw [List.mem_singleton.mp new]
                  exact ⟨rfl, possible, drifts, .refl _⟩
              · refine List.pairwise_append.mpr ⟨ordered, List.pairwise_singleton _ _, ?_⟩
                intro earlier old latest new
                rw [List.mem_singleton.mp new]
                exact (seen earlier old).2.2.2
              · intro outcome after ended
                refine rest outcome after ⟨answer, _, ?_, ended⟩
                exact ⟨world, env, [], memory, connection, possible, performed, rfl⟩
          · cases advanced

theorem Engine.close_ends {now next : World} {outcome : Except Error Result}
    {running : Running World Memory Connection Statement Answer Env Error Request Result}
    (closed : engine.close now running = some (next, outcome)) :
    next = engine.leave ⟨running.request, running.transaction, now, some outcome⟩ ∧
      engine.Ends running.program running.transaction outcome running.transaction := by
  unfold Engine.close at closed
  split at closed
  · rename_i isDone
    cases closed
    exact ⟨rfl, by rw [isDone]; exact ⟨rfl, rfl⟩⟩
  · rename_i isRaise
    cases closed
    exact ⟨rfl, by rw [isRaise]; exact ⟨rfl, rfl⟩⟩
  · cases closed

theorem Engine.serve_served (laws : Laws engine isolation) {world next : World}
    {request : Request} {envs : List Env}
    {ended : Ended World Memory Connection Statement Env Error Request Result}
    (ran : engine.serve world request envs = some (next, ended)) :
    ended.request = request ∧ next = engine.leave ended ∧ ended.outcome.isSome = true ∧
      Served engine isolation world ended := by
  simp only [Engine.serve, Option.bind_eq_bind, Option.bind_eq_some_iff] at ran
  obtain ⟨⟨now, running⟩, followed, ⟨last, outcome⟩, closed, same⟩ := ran
  cases same
  have alone := @Alone.follow _ _ _ _ _ _ _ _ _ _ engine _ _ _ _ _ _ _ .opened followed
  obtain ⟨same, drifts, seen, ordered, ready, rest⟩ := alone.knows laws
  obtain ⟨left, isEnd⟩ := Engine.close_ends closed
  refine ⟨same, left, rfl, drifts, seen, ordered, ready, ?_⟩
  intro other isOutcome
  cases isOutcome
  rw [same]
  exact rest _ _ isEnd

theorem Engine.serve_ends (laws : Laws engine isolation) {world next : World} {request : Request}
    {envs : List Env}
    {ended : Ended World Memory Connection Statement Env Error Request Result}
    (ran : engine.serve world request envs = some (next, ended)) :
    ended.request = request ∧ ∃ outcome, ended.outcome = some outcome ∧
      engine.Ends (engine.program request) (engine.opening world request) outcome
        ended.transaction := by
  obtain ⟨same, _, isOver, served⟩ := Engine.serve_served laws ran
  obtain ⟨outcome, isOutcome⟩ := Option.isSome_iff_exists.mp isOver
  exact ⟨same, outcome, isOutcome, same ▸ served.ends outcome isOutcome⟩

/-- **The rule for serial runs.** A property of the world and of the ended transactions
holds after every serial run if it holds at the start, survives the passing of time and
survives every transaction that is served alone. -/
theorem Serial.recorded (laws : Laws engine isolation) {start world : World}
    {history : List (Ended World Memory Connection Statement Env Error Request Result)}
    {History : World → List (Ended World Memory Connection Statement Env Error Request Result) →
      Prop}
    (initially : History start [])
    (time : ∀ {world env history}, engine.admissible world env = true → History world history →
      History (engine.advance world env) history)
    (leave : ∀ {world ended history}, Served engine isolation world ended → History world history →
      History (engine.leave ended) (history ++ [ended]))
    (serial : Serial engine start world history) : History world history := by
  induction serial with
  | nothing => exact initially
  | waits _ possible inductionHypothesis => exact time possible inductionHypothesis
  | @served world now next history request running outcome _ alone closed inductionHypothesis =>
      obtain ⟨same, drifts, seen, ordered, ready, rest⟩ := alone.knows laws
      have left := Engine.close_ends closed
      rw [left.1]
      refine leave ⟨drifts, seen, ordered, ready, ?_⟩ inductionHypothesis
      intro other isOutcome
      cases isOutcome
      rw [same]
      exact rest _ _ left.2
  | @aborted world now history request running _ alone inductionHypothesis =>
      obtain ⟨same, drifts, seen, ordered, ready, _⟩ := alone.knows laws
      have known :
          Served engine isolation world ⟨running.request, running.transaction, now, none⟩ :=
        ⟨drifts, seen, ordered, ready, by simp⟩
      exact leave known inductionHypothesis

/-- What holds of every transaction that is served alone holds of each in a serial run. -/
theorem Serial.each (laws : Laws engine isolation) {start world : World}
    {history : List (Ended World Memory Connection Statement Env Error Request Result)}
    {Property : Ended World Memory Connection Statement Env Error Request Result → Prop}
    (holds : ∀ {world ended}, Served engine isolation world ended → Property ended)
    (serial : Serial engine start world history) : ∀ ended ∈ history, Property ended := by
  refine @Serial.recorded _ _ _ _ _ _ _ _ _ _ engine isolation laws start world history
    (fun _ history => ∀ ended ∈ history, Property ended) (by simp) (fun _ known => known) ?_ serial
  intro world ended history served known other member
  rcases List.mem_append.mp member with old | new
  · exact known other old
  · exact List.mem_singleton.mp new ▸ holds served

/-! ### Disciplines -/

theorem Policy.unrestricted_allows
    {config : Config World Memory Connection Statement Answer Env Error Request Result}
    (choice : Choice Env Request) : Policy.unrestricted.Allows config choice := by
  cases choice <;> simp [Policy.Allows, Policy.unrestricted]

theorem Alone.reachable {start now : World} {request : Request}
    {running : Running World Memory Connection Statement Answer Env Error Request Result}
    (alone : Alone engine start request now running) :
    Reachable engine .unrestricted ⟨start, [], []⟩ ⟨now, [running], []⟩ := by
  induction alone with
  | opened => exact .step .refl (Policy.unrestricted_allows (.start request)) rfl
  | @moved world next running after env _ advanced inductionHypothesis =>
      have stepped : engine.step ⟨world, [running], []⟩ (.run 0 env) =
          some ⟨next, [after], []⟩ := by
        simp [Engine.step, advanced]
      exact .step inductionHypothesis (Policy.unrestricted_allows _) stepped

section Disciplines

variable {Inv : World → Prop} {Evolves : World → World → Prop}

/-- **The rule for serial runs under a discipline.** Every transaction that is served alone
follows the discipline, and what is known of it carries a property from one to the next. -/
theorem Serial.disciplined (laws : Laws engine isolation)
    (discipline : Discipline engine .unrestricted isolation Inv Evolves) {start world : World}
    {history : List (Ended World Memory Connection Statement Env Error Request Result)}
    {History : World → List (Ended World Memory Connection Statement Env Error Request Result) →
      Prop}
    (inv : Inv start) (initially : History start [])
    (time : ∀ {world env history}, engine.admissible world env = true → History world history →
      History (engine.advance world env) history)
    (leave : ∀ {world ended history}, Inv world → Inv (engine.leave ended) →
      Served engine isolation world ended →
      Over engine .unrestricted isolation Inv Evolves (engine.leave ended) ended →
      History world history → History (engine.leave ended) (history ++ [ended]))
    (serial : Serial engine start world history) : Inv world ∧ History world history := by
  induction serial with
  | nothing => exact ⟨inv, initially⟩
  | waits _ possible inductionHypothesis =>
      obtain ⟨before, known⟩ := inductionHypothesis
      exact ⟨(discipline.advance before possible).1, time possible known⟩
  | @served world now next history request running outcome _ alone closed inductionHypothesis =>
      obtain ⟨before, known⟩ := inductionHypothesis
      obtain ⟨same, drifts, seen, ordered, ready, rest⟩ := alone.knows laws
      obtain ⟨left, ended⟩ := Engine.close_ends closed
      have stepped : engine.step ⟨now, [running], []⟩ (.finish 0) =
          some ⟨next, [], [⟨running.request, running.transaction, now, some outcome⟩]⟩ := by
        simp [Engine.step, closed]
      have sound := (Sound.reachable laws discipline (.quiet before)
        (.step alone.reachable (Policy.unrestricted_allows _) stepped)).1
      have isOver := sound.concluded _ (List.mem_singleton.mpr rfl)
      have after := sound.inv
      rw [left] at isOver after ⊢
      refine ⟨after, leave before after ⟨drifts, seen, ordered, ready, ?_⟩ isOver known⟩
      intro other isOutcome
      cases isOutcome
      rw [same]
      exact rest _ _ ended
  | @aborted world now history request running _ alone inductionHypothesis =>
      obtain ⟨before, known⟩ := inductionHypothesis
      obtain ⟨same, drifts, seen, ordered, ready, _⟩ := alone.knows laws
      have stepped : engine.step ⟨now, [running], []⟩ (.abort 0) =
          some ⟨now, [], [⟨running.request, running.transaction, now, none⟩]⟩ := by
        simp [Engine.step]
      have sound := (Sound.reachable laws discipline (.quiet before)
        (.step alone.reachable (Policy.unrestricted_allows _) stepped)).1
      have after : Inv now := sound.inv
      have isOver := sound.concluded _ (List.mem_singleton.mpr rfl)
      refine ⟨after, ?_⟩
      exact @leave world ⟨running.request, running.transaction, now, none⟩ history before after
        ⟨drifts, seen, ordered, ready, by simp⟩ isOver known

end Disciplines

end Fristenwaechter.Library
