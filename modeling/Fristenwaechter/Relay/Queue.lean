import Fristenwaechter.Library.Batch
import Fristenwaechter.Notifiers.Accounting

/-!
Owns the order in which a relay cycle works off the outbox: by priority, then by age, and
nothing that is due and free waits while something behind it is sent.
-/

namespace Fristenwaechter

open Library (Batch Config Ended Policy Reachable Sound Table batch_take_sorted)

/-! ### The order -/

/-- The relation of `queueLe`. -/
def OutboxMessage.Before (first second : OutboxMessage) : Prop :=
  queueLe first second = true

instance : DecidableRel OutboxMessage.Before := fun first second =>
  inferInstanceAs (Decidable (queueLe first second = true))

theorem OutboxMessage.before_iff {first second : OutboxMessage} :
    first.Before second ↔ first.priority < second.priority ∨
      first.priority = second.priority ∧ first.createdAt ≤ second.createdAt := by
  simp [OutboxMessage.Before, queueLe]

instance : Std.Total OutboxMessage.Before where
  total first second := by
    rw [OutboxMessage.before_iff, OutboxMessage.before_iff]
    rcases lt_trichotomy first.priority second.priority with less | same | more
    · exact .inl (.inl less)
    · rcases le_total first.createdAt second.createdAt with older | younger
      · exact .inl (.inr ⟨same, older⟩)
      · exact .inr (.inr ⟨same.symm, younger⟩)
    · exact .inr (.inl more)

instance : IsTrans OutboxMessage OutboxMessage.Before where
  trans first second third := by
    rw [OutboxMessage.before_iff, OutboxMessage.before_iff, OutboxMessage.before_iff]
    rintro (less | ⟨same, older⟩) (lessThen | ⟨sameThen, olderThen⟩)
    · exact .inl (less.trans lessThen)
    · exact .inl (sameThen ▸ less)
    · exact .inl (same ▸ lessThen)
    · exact .inr ⟨same.trans sameThen, older.trans olderThen⟩

/-! ### The queue of a cycle -/

/-- The stored messages that are due and that no other open transaction holds. -/
def Sent.waiting (claim : Sent) (now : Instant) : List OutboxMessage :=
  claim.world.db.outbox.rows.filter fun row =>
    row.isDue now && !heldByOthers claim.others (.outbox row.id)

/-- The cycle has sent the first messages of the queue, one after the other. -/
structure Done.DrainsIn (done : Done) (clock claim : Sent) : Prop where
  read : [clock, claim] <+: done.transaction.trace
  timed : clock.statement = .now
  looked : claim.statement = .dueOutbox clock.env.now batchSize
  batch : Batch OutboxMessage.Before batchSize (claim.waiting clock.env.now)
    (done.deliveries.map Prod.fst)
  /-- A message that stands ahead of a sent one is sent ahead of it. -/
  ahead : ∀ earlier sent later, done.deliveries = earlier ++ sent :: later →
    ∀ message ∈ claim.waiting clock.env.now, ¬ sent.1.Before message →
      message ∈ earlier.map Prod.fst

/-- A session that is not pinned to a company claims the first messages of the queue. -/
theorem dueMessages_batch {start : Instant} {clock claim : Sent}
    (asked : ((Session.opened none start).saw clock).Asked
      (.dueOutbox clock.env.now batchSize) claim) :
    Batch OutboxMessage.Before batchSize (claim.waiting clock.env.now)
      (claim.dueMessages clock.env.now batchSize) := by
  have same : claim.dueMessages clock.env.now batchSize =
      ((claim.waiting clock.env.now).insertionSort OutboxMessage.Before).take batchSize := by
    have all : ∀ companyId, claim.connection.sees companyId = true := by
      rw [asked.connection]
      exact fun _ => rfl
    have view : claim.db = claim.world.db := asked.db
    simp only [Sent.dueMessages, Sent.waiting, view, all, Bool.true_and]
    rfl
  rw [same]
  exact batch_take_sorted

section Runs

variable (sha256 : Str → Str) (validateKennzeichen : Str → Option Str)

/-- **Nothing overtakes.** However the requests, the sweeps and the relay cycles are
interleaved, a committed cycle sends by priority and then by age, and what it leaves behind
though it is due and free stands behind a full batch. -/
theorem nothing_overtakes {world : World}
    {config : Config World Memory Connection Statement Answer Env Error Request Outcome}
    (reached : Reachable (system sha256 validateKennzeichen) .unrestricted ⟨world, [], []⟩
      config)
    {done : Done} (member : done ∈ config.ended) (isRelay : Ended.request done = .relayOutbox)
    (committed : Done.isCommitted done = true) : ∃ clock claim, done.DrainsIn clock claim := by
  have sound := (Sound.reachable (system_laws sha256 validateKennzeichen)
    (clockDiscipline sha256 validateKennzeichen .unrestricted) (.quiet trivial) reached).1
  obtain ⟨_, _, start, _, _, _, ends, _⟩ := sound.concluded done member
  obtain ⟨result, well⟩ := committed_well committed
  obtain ⟨middle, ran, executed⟩ := relayOutbox_ran (ends _ well) isRelay
  obtain ⟨clock, claim, timed, asked, isBatch, grown, cycle⟩ := cycle_committed ran executed
  have sends : done.deliveries.map Prod.fst = claim.dueMessages clock.env.now batchSize := by
    cases cycle with
    | committed entries writes relays sent deliveries whole =>
        rw [deliveries, relays.sends, isBatch]
  have batch : Batch OutboxMessage.Before batchSize (claim.waiting clock.env.now)
      (done.deliveries.map Prod.fst) := by
    rw [sends]
    exact dueMessages_batch asked
  refine ⟨clock, claim, grown.trace, timed.statement, asked.statement, batch, ?_⟩
  intro earlier sent later split message waiting urgent
  have inOrder : done.deliveries.map Prod.fst =
      earlier.map Prod.fst ++ sent.1 :: later.map Prod.fst := by
    rw [split, List.map_append, List.map_cons]
  exact batch.ahead inOrder waiting urgent

end Runs

/-! ### A CRITICAL message behind a routine one -/

/-- The fleet with a reminder and, inserted behind it, a CRITICAL message. -/
def queueWorld : World where
  db :=
    { fleetWorld.db with
      outbox :=
        (Table.empty.insert (fleetMessage 11)).insert { fleetMessage 12 with priority := 0 } }
  clock := fleetWorld.clock

/-- The CRITICAL message is sent first. -/
theorem nothing_overtakes_critical :
    ∃ config, (system id some).schedule ⟨queueWorld, [], []⟩
        (relayRun (.delivered "m2".toList) 14 ++ [.finish 0]) = some config ∧
      ∃ done ∈ config.ended,
        ((Done.deliveries done).map fun sent => sent.1.id) = [fleetId 12, fleetId 11] ∧
        ∃ clock claim, Done.DrainsIn done clock claim := by
  have found : ((system id some).schedule ⟨queueWorld, [], []⟩
      (relayRun (.delivered "m2".toList) 14 ++ [.finish 0])).any (fun config =>
        config.ended.any fun done => Done.isCommittedCycle done &&
          decide (((Done.deliveries done).map fun sent => sent.1.id) =
            [fleetId 12, fleetId 11])) = true := by
    decide +kernel
  obtain ⟨config, ran, ended⟩ := (Option.any_eq_true _ _).mp found
  obtain ⟨done, member, both⟩ := List.any_eq_true.mp ended
  obtain ⟨cycle, order⟩ := (Bool.and_eq_true _ _).mp both
  obtain ⟨committed, isCycle⟩ := (Bool.and_eq_true _ _).mp cycle
  exact ⟨config, ran, done, member, of_decide_eq_true order,
    nothing_overtakes id some (Reachable.of_schedule ran) member (Done.isCycle_iff.mp isCycle)
      committed⟩

end Fristenwaechter
