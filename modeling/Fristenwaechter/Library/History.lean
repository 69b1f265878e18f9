import Fristenwaechter.Library.Discipline
import Fristenwaechter.Library.Journal

/-!
Owns the log of a run: the executed writes of the transactions that have committed, in the
order of their commits. Whatever has been interleaved, the database of a run is the replay
of its log, and every write in the log is valid where it stands.
-/

namespace Fristenwaechter.Library

variable {World Memory Connection Statement : Type} {Answer : Statement → Type}
variable {Env Error Ref Request Result Db Write : Type} [Writes Db Write Ref]

/-- An engine whose connections collect their writes in a journal until they commit. -/
structure Journalled
    (engine : Engine World Memory Connection Statement Answer Env Error Ref Request Result)
    (isolation : Isolation World Connection Ref) (database : World → Db)
    (journal : Connection → Journal World Write Ref) : Prop where
  advance : ∀ world env, database (engine.advance world env) = database world
  commit : ∀ world connection,
    database (engine.commit world connection) = (journal connection).view (database world)
  ready : ∀ {world connection}, isolation.Ready world connection →
    Journal.Replays (journal connection).writes (database world)

def Ended.committed (journal : Connection → Journal World Write Ref)
    (ended : Ended World Memory Connection Statement Env Error Request Result) : List Write :=
  match ended.outcome with
  | some (.ok _) => (journal ended.transaction.connection).writes
  | _ => []

/-- The committed writes of a run in the order of the commits. -/
def Config.log (journal : Connection → Journal World Write Ref)
    (config : Config World Memory Connection Statement Answer Env Error Request Result) :
    List Write :=
  config.ended.flatMap (Ended.committed journal)

theorem Config.mem_log {journal : Connection → Journal World Write Ref}
    {config : Config World Memory Connection Statement Answer Env Error Request Result}
    {write : Write} : write ∈ config.log journal ↔
      ∃ done ∈ config.ended, (∃ result, done.outcome = some (.ok result)) ∧
        write ∈ (journal done.transaction.connection).writes := by
  simp only [Config.log, List.mem_flatMap]
  refine exists_congr fun done => and_congr_right fun _ => ?_
  unfold Ended.committed
  split
  · rename_i result isOk
    simp [isOk]
  · rename_i notOk
    refine ⟨fun member => absurd member List.not_mem_nil, ?_⟩
    rintro ⟨⟨result, isOk⟩, _⟩
    exact absurd isOk (notOk result)

section Runs

variable {engine : Engine World Memory Connection Statement Answer Env Error Ref Request Result}
variable {policy : Policy World Memory Connection Statement Env Request}
variable {isolation : Isolation World Connection Ref}
variable {Inv : World → Prop} {Evolves : World → World → Prop}
variable {database : World → Db} {journal : Connection → Journal World Write Ref}
variable {start config :
  Config World Memory Connection Statement Answer Env Error Request Result}

theorem Journalled.moved (journalled : Journalled engine isolation database journal)
    {now world : World} {others : List Connection} {env : Env}
    {running moved : Running World Memory Connection Statement Answer Env Error Request Result}
    (advanced : engine.advanceOne now others env running = some (world, moved)) :
    database world = database now := by
  unfold Engine.advanceOne at advanced
  split at advanced
  · cases advanced
  · cases advanced
  · cases advanced
    rfl
  · cases advanced
    rfl
  · split at advanced
    · split at advanced
      · cases advanced
      · cases advanced
        exact journalled.advance now env
    · cases advanced

theorem Journalled.closed (journalled : Journalled engine isolation database journal)
    {now world : World} {outcome : Except Error Result}
    {running : Running World Memory Connection Statement Answer Env Error Request Result}
    (ready : isolation.Ready now running.transaction.connection)
    (closed : engine.close now running = some (world, outcome)) :
    Journal.Replays (Ended.committed journal
        ⟨running.request, running.transaction, now, some outcome⟩) (database now) ∧
      database world = (Ended.committed journal
        ⟨running.request, running.transaction, now, some outcome⟩).foldl
          (fun current write => Writes.apply write current) (database now) := by
  unfold Engine.close at closed
  split at closed
  · cases closed
    exact ⟨journalled.ready ready, journalled.commit _ _⟩
  · cases closed
    exact ⟨trivial, rfl⟩
  · cases closed

/-- **The database of a run is the replay of its log.** -/
theorem Reachable.log (journalled : Journalled engine isolation database journal)
    (laws : Laws engine isolation) (discipline : Discipline engine policy isolation Inv Evolves)
    (sound : Sound engine policy isolation Inv Evolves start) (fresh : start.ended = [])
    (reached : Reachable engine policy start config) :
    Journal.Replays (config.log journal) (database start.world) ∧
      database config.world = (config.log journal).foldl
        (fun current write => Writes.apply write current) (database start.world) := by
  induction reached with
  | refl =>
      rw [Config.log, fresh]
      exact ⟨trivial, rfl⟩
  | @step middle next choice earlier allowed stepped inductionHypothesis =>
      obtain ⟨replays, same⟩ := inductionHypothesis
      have live := (sound.reachable laws discipline earlier).1.live
      rcases step_cases allowed stepped with ⟨request, _, rfl⟩ |
        ⟨before, running, after, whole, moves⟩
      · exact ⟨replays, same⟩
      · rcases moves with ⟨env, world, moved, advanced, _, rfl⟩ | ⟨world, outcome, closed, _, rfl⟩ |
          ⟨_, rfl⟩
        · rw [journalled.moved advanced]
          exact ⟨replays, same⟩
        · have isLive := live running (by rw [whole]; simp)
          obtain ⟨_, _, _, chain, _⟩ := isLive
          obtain ⟨more, added⟩ := journalled.closed chain.ready closed
          rw [Config.log, List.flatMap_append, List.flatMap_singleton]
          refine ⟨Journal.replays_append.mpr ⟨replays, ?_⟩, ?_⟩
          · rw [same] at more
            exact more
          · rw [List.foldl_append, ← Config.log, ← same]
            exact added
        · rw [Config.log, List.flatMap_append, List.flatMap_singleton, Ended.committed,
            List.append_nil]
          exact ⟨replays, same⟩

end Runs

end Fristenwaechter.Library
