import Mathlib.Data.List.Basic
import Mathlib.Tactic.Common
import Fristenwaechter.Library.Behaviour

/-!
Owns the proof rule for interleaved transactions. A discipline names a world
invariant `Inv` and a preorder `Evolves` that every step of the world follows;
the engine's laws say which locks keep which things (`Kept`). If each commit,
looked at on its own with the trace it has produced, follows the discipline, then
so does every run: whatever others do between two statements of a transaction,
the worlds its trace has seen are ordered by `Evolves`, what it holds locked has
been kept since it was locked, and its uncommitted work is still `Ready`.

The rule is stated once for all programs. A user shows, for each request, what a
commit does to the world in terms of the trace (`Commits`).
-/

namespace Fristenwaechter.Library

variable {World Memory Connection Statement : Type} {Answer : Statement → Type}
variable {Env Error Ref Request Result : Type}

/-- What isolation means for an engine: `Kept ref before after` says that a locked
`ref` has survived from one world to another, and `Ready` that the uncommitted work
of a connection can be committed to a world. -/
structure Isolation (World Connection Ref : Type) where
  Kept : Ref → World → World → Prop
  Ready : World → Connection → Prop

/-- What an engine promises about locks: a held thing is kept by everybody else,
locks are stamped with the world they were taken in, no two connections hold the
same thing, and what a connection holds is enough to keep its work ready. -/
structure Laws
    (engine : Engine World Memory Connection Statement Answer Env Error Ref Request Result)
    (isolation : Isolation World Connection Ref) : Prop where
  refl : ∀ ref world, isolation.Kept ref world world
  trans : ∀ {ref first second third}, isolation.Kept ref first second →
    isolation.Kept ref second third → isolation.Kept ref first third
  advance : ∀ {ref world env}, isolation.Kept ref world (engine.advance world env)
  commit : ∀ {ref world connection}, ref ∉ engine.heldRefs connection →
    isolation.Kept ref world (engine.commit world connection)
  connect : ∀ world request, engine.held (engine.connect world request).2 = []
  perform : ∀ {world env others memory connection statement answer memory' connection'},
    engine.perform world env others memory connection statement =
      some (answer, memory', connection') →
    ∀ lock ∈ engine.held connection',
      lock ∈ engine.held connection ∨
        lock.2 = world ∧ ∀ other ∈ others, lock.1 ∉ engine.heldRefs other
  readyConnect : ∀ world request, isolation.Ready world (engine.connect world request).2
  readyPerform : ∀ {world env others memory connection statement answer memory' connection'},
    engine.perform world env others memory connection statement =
      some (answer, memory', connection') →
    isolation.Ready world connection → isolation.Ready world connection'
  readyKept : ∀ {world later connection},
    (∀ ref ∈ engine.heldRefs connection, isolation.Kept ref world later) →
    isolation.Ready world connection → isolation.Ready later connection

section Rule

variable (engine : Engine World Memory Connection Statement Answer Env Error Ref Request Result)
variable (policy : Policy World Memory Connection Statement Env Request)
variable (isolation : Isolation World Connection Ref)
variable (Inv : World → Prop) (Evolves : World → World → Prop)

/-- What a transaction's trace and locks say about the worlds between its start
and now. -/
structure Chain (request : Request) (start : World)
    (transaction : Transaction World Memory Connection Statement Env) (now : World) : Prop where
  started : Evolves start now
  seen : ∀ entry ∈ transaction.trace,
    Inv entry.world ∧ engine.admissible entry.world entry.env = true ∧
      policy.calls request entry ∧ Evolves start entry.world ∧
      Evolves (engine.advance entry.world entry.env) now
  ordered : transaction.trace.Pairwise fun earlier later =>
    Evolves (engine.advance earlier.world earlier.env) later.world
  kept : ∀ lock ∈ engine.held transaction.connection, isolation.Kept lock.1 lock.2 now
  /-- The same for every statement, up to the world it saw. -/
  keptSeen : ∀ entry ∈ transaction.trace, ∀ lock ∈ engine.held entry.connection,
    isolation.Kept lock.1 lock.2 entry.world
  ready : isolation.Ready now transaction.connection

/-- A commit as it is seen by the proof rule: a whole behaviour of the request's
program together with its chain. -/
structure Commits (request : Request) (start : World)
    (transaction : Transaction World Memory Connection Statement Env) (result : Result)
    (now : World) : Prop where
  starts : policy.starts start request
  startInv : Inv start
  chain : Chain engine policy isolation Inv Evolves request start transaction now
  nowInv : Inv now
  ends : engine.Ends (engine.program request) (engine.opening start request) (.ok result)
    transaction
  commits : policy.commits request now transaction

/-- The obligations of a discipline. -/
structure Discipline : Prop where
  refl : ∀ world, Evolves world world
  trans : ∀ {first second third}, Evolves first second → Evolves second third →
    Evolves first third
  advance : ∀ {world env}, Inv world → engine.admissible world env = true →
    Inv (engine.advance world env) ∧ Evolves world (engine.advance world env)
  commit : ∀ {request start transaction result now},
    Commits engine policy isolation Inv Evolves request start transaction result now →
    Inv (engine.commit now transaction.connection) ∧
      Evolves now (engine.commit now transaction.connection)

/-- What is known about an open transaction: it started in some world, its trace
is chained up to now, and every end of its remaining program is an end of the
whole program. -/
def Live (now : World)
    (running : Running World Memory Connection Statement Answer Env Error Request Result) : Prop :=
  ∃ start, policy.starts start running.request ∧ Inv start ∧
    Chain engine policy isolation Inv Evolves running.request start running.transaction now ∧
    ∀ outcome after, engine.Ends running.program running.transaction outcome after →
      engine.Ends (engine.program running.request) (engine.opening start running.request)
        outcome after

/-- What is known about an ended transaction. -/
def Over (now : World)
    (ended : Ended World Memory Connection Statement Env Error Request Result) : Prop :=
  Evolves ended.world now ∧ Inv ended.world ∧
  ∃ start, policy.starts start ended.request ∧ Inv start ∧
    Chain engine policy isolation Inv Evolves ended.request start ended.transaction ended.world ∧
    (∀ outcome, ended.outcome = some outcome →
      engine.Ends (engine.program ended.request) (engine.opening start ended.request)
        outcome ended.transaction) ∧
    ∀ result, ended.outcome = some (.ok result) →
      policy.commits ended.request ended.world ended.transaction

/-- The configuration-level invariant behind a discipline. -/
structure Sound
    (config : Config World Memory Connection Statement Answer Env Error Request Result) :
    Prop where
  inv : Inv config.world
  live : ∀ running ∈ config.running, Live engine policy isolation Inv Evolves config.world running
  exclusive : config.running.Pairwise fun first second =>
    ∀ ref ∈ engine.heldRefs first.transaction.connection,
      ref ∉ engine.heldRefs second.transaction.connection
  concluded : ∀ ended ∈ config.ended, Over engine policy isolation Inv Evolves config.world ended

end Rule

section Steps

variable {engine : Engine World Memory Connection Statement Answer Env Error Ref Request Result}
variable {policy : Policy World Memory Connection Statement Env Request}
variable {isolation : Isolation World Connection Ref}
variable {Inv : World → Prop} {Evolves : World → World → Prop}
variable {config next :
  Config World Memory Connection Statement Answer Env Error Request Result}
variable {choice : Choice Env Request}

private theorem split_at {Item : Type} {items : List Item} {index : Nat} {item : Item}
    (found : items[index]? = some item) :
    ∃ before after, items = before ++ item :: after ∧
      items.eraseIdx index = before ++ after ∧
      ∀ other, items.set index other = before ++ other :: after := by
  obtain ⟨inRange, rfl⟩ := List.getElem?_eq_some_iff.mp found
  refine ⟨items.take index, items.drop (index + 1), ?_, ?_, ?_⟩
  · rw [List.getElem_cons_drop, List.take_append_drop]
  · rw [List.eraseIdx_eq_take_drop_succ]
  · intro other
    rw [List.set_eq_take_append_cons_drop, if_pos inRange]

theorem step_cases (allowed : policy.Allows config choice)
    (stepped : engine.step config choice = some next) :
    (∃ request, policy.starts config.world request ∧
      next = { config with
        running := config.running ++
          [⟨request, engine.opening config.world request, engine.program request⟩] }) ∨
    ∃ before running after, config.running = before ++ running :: after ∧
      ((∃ env world moved,
        engine.advanceOne config.world ((before ++ after).map (·.transaction.connection)) env
          running = some (world, moved) ∧
        (∀ statement rest, running.program = .call statement rest →
          policy.calls running.request ⟨config.world,
            (before ++ after).map (·.transaction.connection), running.transaction.memory,
            running.transaction.connection, statement, env⟩) ∧
        next = { config with world := world, running := before ++ moved :: after }) ∨
      (∃ world outcome, engine.close config.world running = some (world, outcome) ∧
        (∀ result, running.program = .done result →
          policy.commits running.request config.world running.transaction) ∧
        next = ⟨world, before ++ after, config.ended ++
          [⟨running.request, running.transaction, config.world, some outcome⟩]⟩) ∨
      policy.aborts running.request config.world running.transaction ∧
        next = { config with
          running := before ++ after
          ended := config.ended ++
            [⟨running.request, running.transaction, config.world, none⟩] }) := by
  cases choice with
  | start request =>
      refine .inl ⟨request, allowed, ?_⟩
      simpa [Engine.step] using stepped.symm
  | run index env =>
      simp only [Engine.step, Option.bind_eq_bind, Option.bind_eq_some_iff] at stepped
      obtain ⟨running, found, ⟨world, moved⟩, advanced, same⟩ := stepped
      obtain ⟨before, after, whole, erased, replaced⟩ := split_at found
      rw [erased] at advanced
      refine .inr ⟨before, running, after, whole, .inl ⟨env, world, moved, advanced, ?_, ?_⟩⟩
      · exact erased ▸ allowed running found
      · simpa [replaced] using same.symm
  | finish index =>
      simp only [Engine.step, Option.bind_eq_bind, Option.bind_eq_some_iff] at stepped
      obtain ⟨running, found, ⟨world, outcome⟩, closed, same⟩ := stepped
      obtain ⟨before, after, whole, erased, _⟩ := split_at found
      refine .inr ⟨before, running, after, whole, .inr (.inl ⟨world, outcome, closed, ?_, ?_⟩)⟩
      · exact allowed running found
      · simpa [erased] using same.symm
  | abort index =>
      simp only [Engine.step, Option.bind_eq_bind, Option.bind_eq_some_iff] at stepped
      obtain ⟨running, found, same⟩ := stepped
      obtain ⟨before, after, whole, erased, _⟩ := split_at found
      refine .inr ⟨before, running, after, whole, .inr (.inr ⟨allowed running found, ?_⟩)⟩
      simpa [erased] using same.symm

variable (laws : Laws engine isolation)
variable (discipline : Discipline engine policy isolation Inv Evolves)

include laws discipline

theorem Chain.later {request : Request} {start now later : World}
    {transaction : Transaction World Memory Connection Statement Env}
    (chain : Chain engine policy isolation Inv Evolves request start transaction now)
    (evolves : Evolves now later)
    (keeps : ∀ ref ∈ engine.heldRefs transaction.connection, isolation.Kept ref now later) :
    Chain engine policy isolation Inv Evolves request start transaction later where
  started := discipline.trans chain.started evolves
  seen := by
    intro entry member
    obtain ⟨inv, possible, called, after, upTo⟩ := chain.seen entry member
    exact ⟨inv, possible, called, after, discipline.trans upTo evolves⟩
  ordered := chain.ordered
  kept := fun lock member =>
    laws.trans (chain.kept lock member)
      (keeps lock.1 (List.mem_map.mpr ⟨lock, member, rfl⟩))
  keptSeen := chain.keptSeen
  ready := laws.readyKept keeps chain.ready

theorem Live.later {now later : World}
    {running : Running World Memory Connection Statement Answer Env Error Request Result}
    (live : Live engine policy isolation Inv Evolves now running) (evolves : Evolves now later)
    (keeps : ∀ ref ∈ engine.heldRefs running.transaction.connection, isolation.Kept ref now later) :
    Live engine policy isolation Inv Evolves later running := by
  obtain ⟨start, starts, startInv, chain, rest⟩ := live
  exact ⟨start, starts, startInv, chain.later laws discipline evolves keeps, rest⟩

omit laws in
theorem Over.later {now later : World}
    {ended : Ended World Memory Connection Statement Env Error Request Result}
    (concluded : Over engine policy isolation Inv Evolves now ended) (evolves : Evolves now later) :
    Over engine policy isolation Inv Evolves later ended :=
  ⟨discipline.trans concluded.1 evolves, concluded.2⟩

theorem Live.opened {now : World} {request : Request} (starts : policy.starts now request)
    (inv : Inv now) :
    Live engine policy isolation Inv Evolves now
      ⟨request, engine.opening now request, engine.program request⟩ := by
  refine ⟨now, starts, inv, ⟨discipline.refl now, by simp [Engine.opening], by
    simp [Engine.opening], ?_, by simp [Engine.opening], laws.readyConnect now request⟩,
    fun _ _ ended => ended⟩
  intro lock member
  simp [Engine.opening, laws.connect now request] at member

theorem Live.moved {now world : World} {env : Env} {others : List Connection}
    {running moved : Running World Memory Connection Statement Answer Env Error Request Result}
    (live : Live engine policy isolation Inv Evolves now running) (inv : Inv now)
    (advanced : engine.advanceOne now others env running = some (world, moved))
    (called : ∀ statement rest, running.program = .call statement rest →
      policy.calls running.request ⟨now, others, running.transaction.memory,
        running.transaction.connection, statement, env⟩) :
    Inv world ∧ Evolves now world ∧ (∀ ref, isolation.Kept ref now world) ∧
      Live engine policy isolation Inv Evolves world moved ∧
      ∀ ref ∈ engine.heldRefs moved.transaction.connection,
        ref ∈ engine.heldRefs running.transaction.connection ∨
          ∀ other ∈ others, ref ∉ engine.heldRefs other := by
  obtain ⟨start, starts, startInv, chain, rest⟩ := live
  obtain ⟨request, transaction, program⟩ := running
  cases program with
  | done result => simp [Engine.advanceOne] at advanced
  | raise error => simp [Engine.advanceOne] at advanced
  | inspect continuation =>
      simp only [Engine.advanceOne, Option.some.injEq, Prod.mk.injEq] at advanced
      obtain ⟨rfl, rfl⟩ := advanced
      exact ⟨inv, discipline.refl _, fun ref => laws.refl ref _,
        ⟨start, starts, startInv, chain, fun outcome after ended => rest outcome after ended⟩,
        fun ref member => .inl member⟩
  | modify change continuation =>
      simp only [Engine.advanceOne, Option.some.injEq, Prod.mk.injEq] at advanced
      obtain ⟨rfl, rfl⟩ := advanced
      exact ⟨inv, discipline.refl _, fun ref => laws.refl ref _,
        ⟨start, starts, startInv,
          ⟨chain.started, chain.seen, chain.ordered, chain.kept, chain.keptSeen, chain.ready⟩,
          fun outcome after ended => rest outcome after ended⟩,
        fun ref member => .inl member⟩
  | call statement continuation =>
      simp only [Engine.advanceOne] at advanced
      split at advanced
      · rename_i possible
        split at advanced
        · cases advanced
        · rename_i answer memory connection performed
          simp only [Option.some.injEq, Prod.mk.injEq] at advanced
          obtain ⟨rfl, rfl⟩ := advanced
          obtain ⟨nextInv, evolves⟩ := discipline.advance inv possible
          refine ⟨nextInv, evolves, fun ref => laws.advance, ?_, ?_⟩
          · refine ⟨start, starts, startInv,
              ⟨discipline.trans chain.started evolves, ?_, ?_, ?_, ?_,
              laws.readyKept (fun _ _ => laws.advance)
                (laws.readyPerform performed chain.ready)⟩, ?_⟩
            · intro entry member
              rcases List.mem_append.mp member with old | new
              · obtain ⟨entryInv, entryPossible, entryCalled, after, upTo⟩ :=
                  chain.seen entry old
                exact ⟨entryInv, entryPossible, entryCalled, after,
                  discipline.trans upTo evolves⟩
              · rw [List.mem_singleton.mp new]
                exact ⟨inv, possible, called statement continuation rfl, chain.started,
                  discipline.refl _⟩
            · refine List.pairwise_append.mpr ⟨chain.ordered, List.pairwise_singleton _ _, ?_⟩
              intro earlier old later new
              rw [List.mem_singleton.mp new]
              exact (chain.seen earlier old).2.2.2.2
            · intro lock member
              rcases laws.perform performed lock member with old | ⟨stamped, _⟩
              · exact laws.trans (chain.kept lock old) laws.advance
              · rw [stamped]
                exact laws.advance
            · intro entry member
              rcases List.mem_append.mp member with old | new
              · exact chain.keptSeen entry old
              · rw [List.mem_singleton.mp new]
                exact chain.kept
            · intro outcome after ended
              refine rest outcome after ⟨answer, _, ?_, ended⟩
              exact ⟨now, env, others, memory, connection, possible, performed, rfl⟩
          · intro ref member
            obtain ⟨lock, locked, rfl⟩ := List.mem_map.mp member
            rcases laws.perform performed lock locked with old | ⟨_, free⟩
            · exact .inl (List.mem_map.mpr ⟨lock, old, rfl⟩)
            · exact .inr free
      · cases advanced

/-- One allowed step keeps a sound configuration sound, and the world evolves. -/
theorem Sound.step (sound : Sound engine policy isolation Inv Evolves config)
    (allowed : policy.Allows config choice) (stepped : engine.step config choice = some next) :
    Sound engine policy isolation Inv Evolves next ∧ Evolves config.world next.world := by
  rcases step_cases allowed stepped with ⟨request, starts, rfl⟩ |
    ⟨before, running, after, whole, moves⟩
  · refine ⟨⟨sound.inv, ?_, ?_, sound.concluded⟩, discipline.refl _⟩
    · intro running member
      rcases List.mem_append.mp member with old | new
      · exact sound.live running old
      · rw [List.mem_singleton.mp new]
        exact .opened laws discipline starts sound.inv
    · refine List.pairwise_append.mpr ⟨sound.exclusive, List.pairwise_singleton _ _, ?_⟩
      intro first _ second new ref _ shared
      rw [List.mem_singleton.mp new] at shared
      simp [Engine.heldRefs, Engine.opening, laws.connect] at shared
  · have live := sound.live
    have exclusive := sound.exclusive
    rw [whole] at live exclusive
    have mine := live running (by simp)
    have othersLive : ∀ other ∈ before ++ after,
        Live engine policy isolation Inv Evolves config.world other := by
      intro other member
      exact live other (by simp at member ⊢; tauto)
    obtain ⟨beforePairs, tailPairs, across⟩ := List.pairwise_append.mp exclusive
    obtain ⟨mineAfter, afterPairs⟩ := List.pairwise_cons.mp tailPairs
    have othersPairs : (before ++ after).Pairwise fun first second =>
        ∀ ref ∈ engine.heldRefs first.transaction.connection,
          ref ∉ engine.heldRefs second.transaction.connection :=
      List.pairwise_append.mpr ⟨beforePairs, afterPairs, fun first inBefore second inAfter =>
        across first inBefore second (List.mem_cons_of_mem _ inAfter)⟩
    have apart : ∀ other ∈ before ++ after,
        ∀ ref ∈ engine.heldRefs other.transaction.connection,
          ref ∉ engine.heldRefs running.transaction.connection := by
      intro other member ref held mineHeld
      rcases List.mem_append.mp member with inBefore | inAfter
      · exact across other inBefore running (by simp) ref held mineHeld
      · exact mineAfter other inAfter ref mineHeld held
    rcases moves with ⟨env, world, moved, advanced, called, rfl⟩ |
      ⟨world, outcome, closed, commits, rfl⟩ | ⟨_, rfl⟩
    · obtain ⟨nextInv, evolves, keeps, movedLive, movedHeld⟩ :=
        mine.moved laws discipline sound.inv advanced called
      have movedApart : ∀ other ∈ before ++ after,
          ∀ ref ∈ engine.heldRefs moved.transaction.connection,
            ref ∉ engine.heldRefs other.transaction.connection := by
        intro other member ref held
        rcases movedHeld ref held with old | free
        · exact fun otherHeld => apart other member ref otherHeld old
        · exact free _ (List.mem_map.mpr ⟨other, member, rfl⟩)
      refine ⟨⟨nextInv, ?_, ?_, ?_⟩, evolves⟩
      · intro other member
        rcases List.mem_append.mp member with inBefore | tail
        · exact (othersLive other (List.mem_append_left _ inBefore)).later laws discipline
            evolves fun ref _ => keeps ref
        · rcases List.mem_cons.mp tail with rfl | inAfter
          · exact movedLive
          · exact (othersLive other (List.mem_append_right _ inAfter)).later laws discipline
              evolves fun ref _ => keeps ref
      · refine List.pairwise_append.mpr ⟨beforePairs, List.pairwise_cons.mpr ⟨?_, afterPairs⟩, ?_⟩
        · intro other inAfter
          exact movedApart other (List.mem_append_right _ inAfter)
        · intro other inBefore second member ref held
          rcases List.mem_cons.mp member with rfl | inAfter
          · exact fun movedHolds =>
              movedApart other (List.mem_append_left _ inBefore) ref movedHolds held
          · exact across other inBefore second (List.mem_cons_of_mem _ inAfter) ref held
      · exact fun ended member => (sound.concluded ended member).later discipline evolves
    · obtain ⟨start, starts, startInv, chain, rest⟩ := mine
      have progress : Inv world ∧ Evolves config.world world ∧
          (∀ ref ∉ engine.heldRefs running.transaction.connection,
            isolation.Kept ref config.world world) ∧
          engine.Ends (engine.program running.request) (engine.opening start running.request)
            outcome running.transaction := by
        unfold Engine.close at closed
        split at closed
        · rename_i result isDone
          simp only [Option.some.injEq, Prod.mk.injEq] at closed
          obtain ⟨rfl, rfl⟩ := closed
          have ends := rest (.ok result) running.transaction (by rw [isDone]; exact ⟨rfl, rfl⟩)
          obtain ⟨nextInv, evolves⟩ := discipline.commit
            ⟨starts, startInv, chain, sound.inv, ends, commits result isDone⟩
          exact ⟨nextInv, evolves, fun ref free => laws.commit free, ends⟩
        · rename_i error isRaise
          simp only [Option.some.injEq, Prod.mk.injEq] at closed
          obtain ⟨rfl, rfl⟩ := closed
          exact ⟨sound.inv, discipline.refl _, fun ref _ => laws.refl ref _,
            rest (.error error) running.transaction (by rw [isRaise]; exact ⟨rfl, rfl⟩)⟩
        · cases closed
      obtain ⟨nextInv, evolves, keeps, ends⟩ := progress
      refine ⟨⟨nextInv, ?_, othersPairs, ?_⟩, evolves⟩
      · intro other member
        exact (othersLive other member).later laws discipline evolves fun ref held =>
          keeps ref (apart other member ref held)
      · intro ended member
        rcases List.mem_append.mp member with old | new
        · exact (sound.concluded ended old).later discipline evolves
        · rw [List.mem_singleton.mp new]
          refine ⟨evolves, sound.inv, start, starts, startInv, chain, ?_, ?_⟩
          · intro other same
            cases same
            exact ends
          · intro result same
            cases same
            unfold Engine.close at closed
            split at closed
            · rename_i isDone
              exact commits _ isDone
            · cases closed
            · cases closed
    · refine ⟨⟨sound.inv, othersLive, othersPairs, ?_⟩, discipline.refl _⟩
      intro ended member
      rcases List.mem_append.mp member with old | new
      · exact sound.concluded ended old
      · rw [List.mem_singleton.mp new]
        obtain ⟨start, starts, startInv, chain, _⟩ := mine
        exact ⟨discipline.refl _, sound.inv, start, starts, startInv, chain, by simp, by simp⟩

/-- **The rule.** Every run that starts sound stays sound, and its world evolves
along the discipline. -/
theorem Sound.reachable {start : Config World Memory Connection Statement Answer Env Error Request
      Result}
    (sound : Sound engine policy isolation Inv Evolves start)
    (reached : Reachable engine policy start config) :
    Sound engine policy isolation Inv Evolves config ∧ Evolves start.world config.world := by
  induction reached with
  | refl => exact ⟨sound, discipline.refl _⟩
  | step _ allowed stepped inductionHypothesis =>
      obtain ⟨current, evolved⟩ := inductionHypothesis
      obtain ⟨after, moved⟩ := current.step laws discipline allowed stepped
      exact ⟨after, discipline.trans evolved moved⟩

omit laws discipline in
theorem Sound.quiet {world : World} (inv : Inv world) :
    Sound engine policy isolation Inv Evolves ⟨world, [], []⟩ := by
  constructor <;> simp [inv]

/-! ### Histories -/

omit laws discipline in
theorem Over.commits {now : World}
    {ended : Ended World Memory Connection Statement Env Error Request Result} {result : Result}
    (concluded : Over engine policy isolation Inv Evolves now ended)
    (well : ended.outcome = some (.ok result)) :
    ∃ start, Commits engine policy isolation Inv Evolves ended.request start ended.transaction
      result ended.world := by
  obtain ⟨_, inv, start, starts, startInv, chain, ends, commits⟩ := concluded
  exact ⟨start, starts, startInv, chain, inv, ends _ well, commits _ well⟩

omit laws discipline in
/-- How the world and the history change in one step: time passes, a transaction is
added to the history, or nothing. -/
theorem history_cases (stepped : engine.step config choice = some next) :
    (next.world = config.world ∧ next.ended = config.ended) ∨
    (∃ env, engine.admissible config.world env = true ∧
      next.world = engine.advance config.world env ∧ next.ended = config.ended) ∨
    ∃ done, done.world = config.world ∧ next.world = engine.leave done ∧
      next.ended = config.ended ++ [done] := by
  have allowed : Policy.unrestricted.Allows config choice := by
    cases choice <;> simp [Policy.Allows, Policy.unrestricted]
  rcases step_cases allowed stepped with ⟨request, _, rfl⟩ |
    ⟨before, running, after, _, ⟨env, world, moved, advanced, _, rfl⟩ |
      ⟨world, outcome, closed, _, rfl⟩ | ⟨_, rfl⟩⟩
  · exact .inl ⟨rfl, rfl⟩
  · unfold Engine.advanceOne at advanced
    split at advanced
    · cases advanced
    · cases advanced
    · cases advanced
      exact .inl ⟨rfl, rfl⟩
    · cases advanced
      exact .inl ⟨rfl, rfl⟩
    · split at advanced
      · rename_i possible
        split at advanced
        · cases advanced
        · cases advanced
          exact .inr (.inl ⟨env, possible, rfl, rfl⟩)
      · cases advanced
  · refine .inr (.inr ⟨⟨running.request, running.transaction, config.world, some outcome⟩,
      rfl, ?_, rfl⟩)
    unfold Engine.close at closed
    split at closed <;> cases closed <;> rfl
  · exact .inr (.inr ⟨⟨running.request, running.transaction, config.world, none⟩, rfl, rfl, rfl⟩)

/-- **The rule for histories.** A property of the world and of the ended
transactions holds after every run if it holds at the start, survives the passing of
time and survives every end of a transaction. -/
theorem Sound.recorded {start : Config World Memory Connection Statement Answer Env Error Request
      Result}
    {History : World → List (Ended World Memory Connection Statement Env Error Request Result) →
      Prop}
    (time : ∀ {world env ended}, Inv world → engine.admissible world env = true →
      History world ended → History (engine.advance world env) ended)
    (leave : ∀ {ended done}, Over engine policy isolation Inv Evolves done.world done →
      History done.world ended → History (engine.leave done) (ended ++ [done]))
    (sound : Sound engine policy isolation Inv Evolves start)
    (initially : History start.world start.ended)
    (reached : Reachable engine policy start config) : History config.world config.ended := by
  induction reached with
  | refl => exact initially
  | @step middle last choice earlier allowed stepped inductionHypothesis =>
      obtain ⟨current, _⟩ := sound.reachable laws discipline earlier
      obtain ⟨after, _⟩ := current.step laws discipline allowed stepped
      rcases history_cases stepped with ⟨world, ended⟩ | ⟨env, possible, world, ended⟩ |
        ⟨done, same, world, ended⟩
      · rw [world, ended]
        exact inductionHypothesis
      · rw [world, ended]
        exact time current.inv possible inductionHypothesis
      · rw [world, ended]
        refine leave ⟨discipline.refl _, (after.concluded done (by simp [ended])).2⟩ ?_
        rw [same]
        exact inductionHypothesis

omit laws in
theorem Discipline.strengthen {More : World → Prop}
    (advance : ∀ {world env}, Inv world → engine.admissible world env = true → More world →
      More (engine.advance world env))
    (commit : ∀ {request start transaction result now},
      Commits engine policy isolation (fun world => Inv world ∧ More world) Evolves request start
        transaction result now →
      More (engine.commit now transaction.connection)) :
    Discipline engine policy isolation (fun world => Inv world ∧ More world) Evolves where
  refl := discipline.refl
  trans := discipline.trans
  advance := by
    intro world env inv possible
    obtain ⟨nextInv, evolves⟩ := discipline.advance inv.1 possible
    exact ⟨⟨nextInv, advance inv.1 possible inv.2⟩, evolves⟩
  commit := by
    intro request start transaction result now commits
    have weaker : Commits engine policy isolation Inv Evolves request start transaction result
        now := by
      obtain ⟨starts, startInv, chain, nowInv, ends, allowed⟩ := commits
      refine ⟨starts, startInv.1, ⟨chain.started, ?_, chain.ordered, chain.kept,
        chain.keptSeen, chain.ready⟩,
        nowInv.1, ends, allowed⟩
      intro entry member
      obtain ⟨inv, rest⟩ := chain.seen entry member
      exact ⟨inv.1, rest⟩
    obtain ⟨nextInv, evolves⟩ := discipline.commit weaker
    exact ⟨⟨nextInv, commit commits⟩, evolves⟩

end Steps

end Fristenwaechter.Library
