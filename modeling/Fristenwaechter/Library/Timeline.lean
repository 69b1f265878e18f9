import Fristenwaechter.Library.Discipline

/-!
Owns the order of events across transactions. Where every statement takes time, the clock
of the world tells which came first: a statement was sent either before a transaction ended
or in a world that has evolved from what that transaction left behind.
-/

namespace Fristenwaechter.Library

variable {World Memory Connection Statement : Type} {Answer : Statement → Type}
variable {Env Error Ref Request Result : Type}
variable {engine : Engine World Memory Connection Statement Answer Env Error Ref Request Result}
variable {policy : Policy World Memory Connection Statement Env Request}
variable {isolation : Isolation World Connection Ref}
variable {Inv : World → Prop} {Evolves : World → World → Prop}
variable {start config next :
  Config World Memory Connection Statement Answer Env Error Request Result}

/-- A clock that goes on with every statement and stands still otherwise. -/
structure Engine.Clocked
    (engine : Engine World Memory Connection Statement Answer Env Error Ref Request Result)
    (clock : World → Int) : Prop where
  advance : ∀ {world env}, engine.admissible world env = true →
    clock world < clock (engine.advance world env)
  commit : ∀ world connection, clock (engine.commit world connection) = clock world

/-- An open or ended transaction has sent the statement. -/
def Config.Sent (config : Config World Memory Connection Statement Answer Env Error Request Result)
    (entry : Entry World Memory Connection Statement Env) : Prop :=
  (∃ running ∈ config.running, entry ∈ running.transaction.trace) ∨
    ∃ ended ∈ config.ended, entry ∈ ended.transaction.trace

/-- Sent before the end of the transaction, or in a world that follows it. -/
def Engine.Ordered
    (engine : Engine World Memory Connection Statement Answer Env Error Ref Request Result)
    (Evolves : World → World → Prop) (clock : World → Int)
    (ended : Ended World Memory Connection Statement Env Error Request Result)
    (entry : Entry World Memory Connection Statement Env) : Prop :=
  clock entry.world < clock ended.world ∨ Evolves (engine.leave ended) entry.world

/-- All statements and all ends of a run are in order. -/
structure Timeline
    (engine : Engine World Memory Connection Statement Answer Env Error Ref Request Result)
    (Evolves : World → World → Prop) (clock : World → Int)
    (config : Config World Memory Connection Statement Answer Env Error Request Result) : Prop where
  past : ∀ entry, config.Sent entry → clock entry.world < clock config.world
  left : ∀ ended ∈ config.ended, Evolves (engine.leave ended) config.world
  ordered : ∀ ended ∈ config.ended, ∀ entry, config.Sent entry →
    engine.Ordered Evolves clock ended entry

theorem sent_cases {choice : Choice Env Request} (stepped : engine.step config choice = some next) :
    (next.world = config.world ∧ next.ended = config.ended ∧
      ∀ entry, next.Sent entry → config.Sent entry) ∨
    (∃ env, engine.admissible config.world env = true ∧
      next.world = engine.advance config.world env ∧ next.ended = config.ended ∧
      ∀ entry, next.Sent entry → config.Sent entry ∨ entry.world = config.world) ∨
    ∃ done, done.world = config.world ∧ next.world = engine.leave done ∧
      next.ended = config.ended ++ [done] ∧ ∀ entry, next.Sent entry → config.Sent entry := by
  have allowed : Policy.unrestricted.Allows config choice := by
    cases choice <;> simp [Policy.Allows, Policy.unrestricted]
  rcases step_cases allowed stepped with ⟨request, _, rfl⟩ |
    ⟨before, running, after, whole, moves⟩
  · refine .inl ⟨rfl, rfl, fun entry sent => ?_⟩
    rcases sent with ⟨other, member, inTrace⟩ | ended
    · rcases List.mem_append.mp member with old | new
      · exact .inl ⟨other, old, inTrace⟩
      · rw [List.mem_singleton.mp new] at inTrace
        exact absurd inTrace List.not_mem_nil
    · exact .inr ended
  · -- the transactions beside the one that moves
    have beside : ∀ other ∈ before ++ after, other ∈ config.running := by
      intro other member
      rw [whole]
      rcases List.mem_append.mp member with inBefore | inAfter
      · exact List.mem_append_left _ inBefore
      · exact List.mem_append_right _ (List.mem_cons_of_mem _ inAfter)
    have itself : running ∈ config.running := by
      rw [whole]
      exact List.mem_append_right _ List.mem_cons_self
    -- a transaction that ends takes its trace along
    have closing : ∀ (world : World) (outcome : Option (Except Error Result)) entry,
        Config.Sent (⟨world, before ++ after, config.ended ++
          [⟨running.request, running.transaction, config.world, outcome⟩]⟩ :
            Config World Memory Connection Statement Answer Env Error Request Result) entry →
          config.Sent entry := by
      intro world outcome entry sent
      rcases sent with ⟨other, member, inTrace⟩ | ⟨done, member, inTrace⟩
      · exact .inl ⟨other, beside other member, inTrace⟩
      · rcases List.mem_append.mp member with old | new
        · exact .inr ⟨done, old, inTrace⟩
        · rw [List.mem_singleton.mp new] at inTrace
          exact .inl ⟨running, itself, inTrace⟩
    rcases moves with ⟨env, world, moved, advanced, _, rfl⟩ | ⟨world, outcome, closed, _, rfl⟩ |
      ⟨_, rfl⟩
    · have others : ∀ entry, Config.Sent (⟨world, before ++ moved :: after, config.ended⟩ :
          Config World Memory Connection Statement Answer Env Error Request Result) entry →
            config.Sent entry ∨ entry ∈ moved.transaction.trace := by
        intro entry sent
        rcases sent with ⟨other, member, inTrace⟩ | ended
        · rcases List.mem_append.mp member with inBefore | tail
          · exact .inl (.inl ⟨other, beside other (List.mem_append_left _ inBefore), inTrace⟩)
          · rcases List.mem_cons.mp tail with rfl | inAfter
            · exact .inr inTrace
            · exact .inl (.inl ⟨other, beside other (List.mem_append_right _ inAfter), inTrace⟩)
        · exact .inl (.inr ended)
      unfold Engine.advanceOne at advanced
      split at advanced
      · cases advanced
      · cases advanced
      · cases advanced
        exact .inl ⟨rfl, rfl, fun entry sent => (others entry sent).elim id fun inTrace =>
          .inl ⟨running, itself, inTrace⟩⟩
      · cases advanced
        exact .inl ⟨rfl, rfl, fun entry sent => (others entry sent).elim id fun inTrace =>
          .inl ⟨running, itself, inTrace⟩⟩
      · split at advanced
        · rename_i possible
          split at advanced
          · cases advanced
          · cases advanced
            refine .inr (.inl ⟨env, possible, rfl, rfl, fun entry sent => ?_⟩)
            rcases others entry sent with old | inTrace
            · exact .inl old
            · rcases List.mem_append.mp inTrace with old | new
              · exact .inl (.inl ⟨running, itself, old⟩)
              · rw [List.mem_singleton.mp new]
                exact .inr rfl
        · cases advanced
    · refine .inr (.inr ⟨⟨running.request, running.transaction, config.world, some outcome⟩, rfl,
        ?_, rfl, closing world (some outcome)⟩)
      unfold Engine.close at closed
      split at closed <;> cases closed <;> rfl
    · exact .inr (.inr ⟨⟨running.request, running.transaction, config.world, none⟩, rfl, rfl, rfl,
        closing config.world none⟩)

theorem Timeline.step {clock : World → Int} (clocked : engine.Clocked clock)
    (discipline : Discipline engine policy isolation Inv Evolves)
    (timeline : Timeline engine Evolves clock config) {choice : Choice Env Request}
    (stepped : engine.step config choice = some next) (evolves : Evolves config.world next.world) :
    Timeline engine Evolves clock next := by
  rcases sent_cases stepped with ⟨world, ended, sent⟩ | ⟨env, possible, world, ended, sent⟩ |
    ⟨done, same, world, ended, sent⟩
  · refine ⟨fun entry inNext => ?_, fun closed inNext => ?_, fun closed inNext entry entryIn => ?_⟩
    · rw [world]
      exact timeline.past entry (sent entry inNext)
    · rw [world]
      exact timeline.left closed (ended ▸ inNext)
    · exact timeline.ordered closed (ended ▸ inNext) entry (sent entry entryIn)
  · have later : clock config.world < clock next.world := by
      rw [world]
      exact clocked.advance possible
    refine ⟨fun entry inNext => ?_, fun closed inNext => ?_, fun closed inNext entry entryIn => ?_⟩
    · rcases sent entry inNext with old | new
      · have before := timeline.past entry old
        omega
      · rw [new]
        exact later
    · exact discipline.trans (timeline.left closed (ended ▸ inNext)) evolves
    · rcases sent entry entryIn with old | new
      · exact timeline.ordered closed (ended ▸ inNext) entry old
      · -- the new statement is sent after everything that has ended
        refine .inr ?_
        rw [new]
        exact timeline.left closed (ended ▸ inNext)
  · have still : clock next.world = clock config.world := by
      rw [world, ← same]
      unfold Engine.leave
      split
      · exact clocked.commit _ _
      · rfl
    refine ⟨fun entry inNext => ?_, fun closed inNext => ?_, fun closed inNext entry entryIn => ?_⟩
    · rw [still]
      exact timeline.past entry (sent entry inNext)
    · rw [ended] at inNext
      rcases List.mem_append.mp inNext with old | new
      · exact discipline.trans (timeline.left closed old) evolves
      · rw [List.mem_singleton.mp new, ← world]
        exact discipline.refl _
    · rw [ended] at inNext
      rcases List.mem_append.mp inNext with old | new
      · exact timeline.ordered closed old entry (sent entry entryIn)
      · -- the transaction that ends now ends after everything that has been sent
        refine .inl ?_
        rw [List.mem_singleton.mp new, same]
        exact timeline.past entry (sent entry entryIn)

/-- **Statements and ends are in order.** -/
theorem Reachable.timeline {clock : World → Int} (clocked : engine.Clocked clock)
    (laws : Laws engine isolation) (discipline : Discipline engine policy isolation Inv Evolves)
    {world : World} (inv : Inv world)
    (reached : Reachable engine policy ⟨world, [], []⟩ config) :
    Timeline engine Evolves clock config := by
  induction reached with
  | refl =>
      have nothing : ∀ entry, ¬ Config.Sent (⟨world, [], []⟩ :
          Config World Memory Connection Statement Answer Env Error Request Result) entry := by
        rintro entry (⟨_, member, _⟩ | ⟨_, member, _⟩)
        · exact absurd member List.not_mem_nil
        · exact absurd member List.not_mem_nil
      exact ⟨fun entry sent => absurd sent (nothing entry),
        fun closed member => absurd member List.not_mem_nil,
        fun closed member => absurd member List.not_mem_nil⟩
  | step earlier allowed stepped inductionHypothesis =>
      have sound := ((Sound.quiet inv).reachable laws discipline earlier).1
      exact inductionHypothesis.step clocked discipline stepped
        (sound.step laws discipline allowed stepped).2

end Fristenwaechter.Library
