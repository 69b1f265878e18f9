import Fristenwaechter.Auth.BruteForce
import Fristenwaechter.Behaviour.Requests
import Fristenwaechter.Calendar.Berlin
import Fristenwaechter.Sweeps.Reminders

/-!
Owns the durations that are added to a Berlin `datetime`: the back-off of a failed
delivery and the lock of a login. Python adds them to the wall time, so they are elapsed
time except around a change of the clocks.
-/

namespace Fristenwaechter

open Library (Ended Reachable Serial Table)

/-- `seconds` after `t` the clocks show `seconds` more: summer time has not ended in
between, and has not begun more than an hour before. -/
def Elapses (t seconds : Int) : Prop :=
  (InSummer t → InSummer (t + seconds * microsPerSecond)) ∧
    (InSummer (t + seconds * microsPerSecond - microsPerHour) → InSummer t)

/-- What `relay._record_failure` has noted for a retry, having read the clock once. -/
structure Retries (row : OutboxMessage) (session after : Session) (failedAt : Instant)
    (current : OutboxMessage) : Prop where
  clock : ∃ now : Sent, after.trace = session.trace ++ [now] ∧ now.statement = .now ∧
    now.env.now = failedAt
  update : .updateOutbox row current ∈ after.memory.pending
  attempts : current.attempts = row.attempts + 1

theorem recordFailure_retries {row : OutboxMessage} {error : Str} {session after : Session}
    (fewer : row.attempts + 1 < backoff.length)
    (ended : postgres.Ends (recordFailure row error) session (.ok ()) after) :
    ∃ delay failedAt current, backoff[row.attempts + 1]? = some delay ∧
      Retries row session after failedAt current ∧
      current.nextAttemptAt = plusSeconds failedAt delay := by
  unfold recordFailure at ended
  dsimp only at ended
  split at ended
  · rename_i spent
    exact absurd fewer (Nat.not_lt_of_le spent)
  · rcases step_orThrow ended with ⟨delay, inRange, ended⟩ | ⟨_, same, _⟩
    · obtain ⟨now, timed, ended⟩ := step_now ended
      obtain ⟨_, rfl⟩ := ended
      exact ⟨delay, now.env.now, _, inRange, ⟨⟨now, rfl, timed.statement, rfl⟩,
        List.mem_append_right _ (List.mem_singleton_self _), rfl⟩, rfl⟩
    · cases same

def Throttle.Write.row : Throttle.Write → Throttle.LoginThrottle
  | .insert row => row
  | .update _ current => current

/-- The fifth failure and every later one lock their pair. -/
theorem failureWrite_locks {email ip : Str} {row : Option Throttle.LoginThrottle} {now : Instant}
    (last : Throttle.maxFails ≤ (Throttle.failureWrite email ip row now).row.failCount) :
    (Throttle.failureWrite email ip row now).row.lockedUntil =
      some (plusSeconds now Throttle.lockDuration) := by
  cases row with
  | none => exact if_pos last
  | some row => exact if_pos last

/-- **Durations.** A retry is due its back-off after the failure, and a lock lasts its
duration, exactly when the clocks do not change in between. -/
theorem durations_elapse {row : OutboxMessage} {error : Str} {session after : Session}
    {email ip : Str} {guarded : Throttle.Session}
    (fewer : row.attempts + 1 < backoff.length)
    (retried : postgres.Ends (recordFailure row error) session (.ok ()) after)
    (counted : Throttle.postgres.Ends (Throttle.recordFailure email ip) ⟨(), [], []⟩ (.ok ())
      guarded) :
    (∃ delay failedAt current, backoff[row.attempts + 1]? = some delay ∧
      Retries row session after failedAt current ∧
      (current.nextAttemptAt = failedAt + delay * microsPerSecond ↔ Elapses failedAt delay)) ∧
    ∃ read clock wrote write, Throttle.Wrote email ip read clock wrote write guarded (.ok ()) ∧
      (Throttle.maxFails ≤ write.row.failCount →
        ∃ lockedUntil, write.row.lockedUntil = some lockedUntil ∧
          (lockedUntil = clock.env.now + Throttle.lockDuration * microsPerSecond ↔
            Elapses clock.env.now Throttle.lockDuration)) := by
  refine ⟨?_, ?_⟩
  · obtain ⟨delay, failedAt, current, inRange, retries, due⟩ := recordFailure_retries fewer retried
    refine ⟨delay, failedAt, current, inRange, retries, ?_⟩
    rw [due]
    exact plusSeconds_eq_iff
  · obtain ⟨read, clock, wrote, writes⟩ := Throttle.ends_recordFailure rfl counted
    exact ⟨read, clock, wrote, _, writes, fun last =>
      ⟨_, failureWrite_locks last, plusSeconds_eq_iff⟩⟩

/-! ### An autumn night -/

/-- 2026-10-25, 02:10 for the second time. -/
def autumn : Instant := 1792890600 * microsPerSecond

def autumnMessage : OutboxMessage :=
  .staged (fleetId 11) autumn (fleetId 100) .email "chef@spedition.de".toList "reminder".toList [] 5
    "key".toList

def autumnEnv (number : Nat) : Env :=
  { fleetEnv number with
    now := autumn + number
    delivery := .refused "timeout".toList }

def autumnWorld : World where
  db := { fleetWorld.db with outbox := Table.empty.insert autumnMessage }
  clock := autumn

def autumnRow : Throttle.LoginThrottle where
  email := "chef@spedition.de".toList
  ip := "10.0.0.1".toList
  failCount := 4
  lockedUntil := none
  updatedAt := autumn

def autumnLogins : Throttle.World where
  rows := Table.empty.insert autumnRow
  clock := autumn

/-- A refused delivery and the fifth failed login of that night. -/
theorem durations_elapse_autumn :
    ∃ after guarded, postgres.Ends (recordFailure autumnMessage "timeout".toList)
        (Session.opened none autumn) (.ok ()) after ∧
      Throttle.postgres.Ends (Throttle.recordFailure autumnRow.email autumnRow.ip) ⟨(), [], []⟩
        (.ok ()) guarded ∧
      (∃ delay failedAt current, backoff[autumnMessage.attempts + 1]? = some delay ∧
        Retries autumnMessage (Session.opened none autumn) after failedAt current ∧
        (current.nextAttemptAt = failedAt + delay * microsPerSecond ↔ Elapses failedAt delay)) ∧
      ∃ read clock wrote write, Throttle.Wrote autumnRow.email autumnRow.ip read clock wrote write
          guarded (.ok ()) ∧ write.row.failCount = Throttle.maxFails ∧
        ∃ lockedUntil, write.row.lockedUntil = some lockedUntil ∧
          (lockedUntil = clock.env.now + Throttle.lockDuration * microsPerSecond ↔
            Elapses clock.env.now Throttle.lockDuration) := by
  have retried : ∃ after, postgres.Ends (recordFailure autumnMessage "timeout".toList)
      (Session.opened none autumn) (.ok ()) after :=
    ⟨_, _, _, ⟨autumnWorld, autumnEnv 1, [], _, _, by decide, rfl, rfl⟩, rfl, rfl⟩
  have counted : ∃ guarded, Throttle.postgres.Ends
      (Throttle.recordFailure autumnRow.email autumnRow.ip) ⟨(), [], []⟩ (.ok ()) guarded ∧
      guarded.trace.map (·.statement) = [.throttleRow autumnRow.email autumnRow.ip, .now,
        .execute (.update autumnRow (autumnRow.failed (autumn + 1)))] :=
    ⟨_, ⟨_, _, ⟨autumnLogins, ⟨autumn + 1, none⟩, [], _, _, by decide, rfl, rfl⟩,
      _, _, ⟨autumnLogins, ⟨autumn + 1, none⟩, [], _, _, by decide, rfl, rfl⟩,
      _, _, ⟨autumnLogins, ⟨autumn + 1, none⟩, [], _, _, by decide, rfl, rfl⟩, rfl, rfl⟩, rfl⟩
  obtain ⟨after, retried⟩ := retried
  obtain ⟨guarded, counted, statements⟩ := counted
  obtain ⟨retry, read, clock, wrote, write, writes, locks⟩ :=
    durations_elapse (by decide) retried counted
  have isWrite : write = .update autumnRow (autumnRow.failed (autumn + 1)) := by
    rw [writes.trace] at statements
    have last := (List.cons.inj (List.cons.inj (List.cons.inj statements).2).2).1
    exact Throttle.Statement.execute.inj (writes.executes.symm.trans last)
  have isFifth : write.row.failCount = Throttle.maxFails := by
    rw [isWrite]
    rfl
  exact ⟨after, guarded, retried, counted, retry, read, clock, wrote, write, writes, isFifth,
    locks isFifth.ge⟩

def autumnCalls : List (Library.Choice Throttle.Env Throttle.Request) :=
  Throttle.failing autumn ++ Throttle.failing (autumn + 10) ++ Throttle.failing (autumn + 20) ++
    Throttle.failing (autumn + 30) ++ Throttle.failing (autumn + 40)

/-- In the repeated hour a retry is due, and a lock expires, long before the failure. -/
theorem retry_before_failure :
    (∃ world history, Serial (system id some) autumnWorld world history ∧
      history.map Ended.request = [.relayOutbox] ∧
      ∃ row ∈ world.db.outbox, row.attempts = 1 ∧ row.nextAttemptAt < autumnWorld.clock) ∧
    ∃ config, Reachable (Throttle.logins fun _ _ => false) .unrestricted (Throttle.fresh autumn)
        config ∧
      ∃ row ∈ config.world.rows, row.failCount = Throttle.maxFails ∧
        ∃ lockedUntil, row.lockedUntil = some lockedUntil ∧ lockedUntil < autumn := by
  refine ⟨?_, ?_⟩
  · have served : ((system id some).serve autumnWorld .relayOutbox
        ((List.range 10).map fun step => autumnEnv (step + 1))).any (fun served =>
          served.1.db.outbox.rows.any fun row =>
            row.attempts = 1 ∧ (row.nextAttemptAt : Int) < autumnWorld.clock) = true := by
      decide +kernel
    obtain ⟨⟨world, done⟩, ran, found⟩ := (Option.any_eq_true _ _).mp served
    obtain ⟨row, member, holds⟩ := List.any_eq_true.mp found
    refine ⟨world, [done], Serial.nothing.serve ran, ?_, row, member, of_decide_eq_true holds⟩
    rw [List.map_singleton, (Library.Engine.serve_ends (system_laws _ _) ran).1]
  · have locked : ((Throttle.logins fun _ _ => false).schedule (Throttle.fresh autumn)
        autumnCalls).any (fun config => config.world.rows.rows.any fun row =>
          row.failCount = Throttle.maxFails &&
            row.lockedUntil.any fun lockedUntil => (lockedUntil : Int) < autumn) = true := by
      decide +kernel
    obtain ⟨config, ran, found⟩ := (Option.any_eq_true _ _).mp locked
    obtain ⟨row, member, holds⟩ := List.any_eq_true.mp found
    obtain ⟨fails, isUntil⟩ := (Bool.and_eq_true _ _).mp holds
    obtain ⟨lockedUntil, isLocked, past⟩ := (Option.any_eq_true _ _).mp isUntil
    exact ⟨config, .of_schedule ran, row, member, of_decide_eq_true fails, lockedUntil, isLocked,
      of_decide_eq_true past⟩

end Fristenwaechter
