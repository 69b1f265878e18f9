import Fristenwaechter.Auth.Throttle

/-!
Owns the bound on failed logins: what the counter of a pair says after every
interleaving of login transactions. A failure is counted by reading the row, adding
one in memory and writing the sum, so the counter is right as long as the pair's row
is still the one that was read when the write is executed; two attempts that read the
same row lose a count, and two first attempts collide on the unique index.
-/

namespace Fristenwaechter.Throttle

open Library (Table Journal Writes Server Engine Entry Transaction Running Ended Config Choice
  Policy Laws Chain Over Commits Discipline Sound Reachable)
open Library.Journal (held)

abbrev Session := Transaction World Unit Connection Statement Env

abbrev Sent := Entry World Unit Connection Statement Env

abbrev Done := Ended World Unit Connection Statement Env Error Request Result

abbrev Logins := Config World Unit Connection Statement Answer Env Error Request Result

/-! ### The bound -/

def World.failCount (world : World) (pair : Pair) : Int :=
  (world.rows.find pair).elim 0 LoginThrottle.failCount

def LoginThrottle.Locks (row : LoginThrottle) (now : Instant) : Prop :=
  ∃ lockedUntil, row.lockedUntil = some lockedUntil ∧ lockedUntil > now

def clockRead (trace : List Sent) : Instant :=
  (trace.findSome? fun entry =>
    match entry.statement with
    | .now => some entry.env.now
    | _ => none).getD 0

/-- The failures of a pair since its last success, and the time of the last one. -/
structure Tally where
  count : Int
  last : Instant

/-- What the end of one transaction does to the tally of a pair. -/
def Tally.next (pair : Pair) (tally : Tally) (done : Done) : Tally :=
  match done.outcome with
  | some (.ok _) =>
      if done.request.pair = pair then
        match done.request.stage with
        | .recordFailure => ⟨tally.count + 1, clockRead done.transaction.trace⟩
        | .resetFailures => ⟨0, tally.last⟩
        | _ => tally
      else tally
  | _ => tally

/-- The tally of a pair over a history. -/
def tally (ended : List Done) (pair : Pair) : Tally :=
  ended.foldl (Tally.next pair) ⟨0, 0⟩

/-- The guard does what it is for. -/
structure Guarded (logins : Logins) : Prop where
  /-- No increment is lost. -/
  counted : ∀ pair, logins.world.failCount pair = (tally logins.ended pair).count
  /-- The fifth failure locks the pair, and so does every further one. -/
  locked : ∀ pair, (tally logins.ended pair).count ≥ maxFails →
    ∃ row, logins.world.rows.find pair = some row ∧ row.Locks (tally logins.ended pair).last
  /-- A call that finds its pair locked is refused. -/
  refused : ∀ done ∈ logins.ended, done.request.stage = .assertNotLocked →
    ∀ read ∈ done.transaction.trace,
      read.statement = .throttleRow done.request.attempt.email done.request.attempt.ip →
      ∀ row, read.world.rows.find done.request.pair = some row →
        row.Locks (clockRead done.transaction.trace) → ∀ outcome, done.outcome = some outcome →
          ∃ seconds, login done.request.stage outcome = .raises (.accountLocked seconds)
  /-- A call that raises raises one of the two errors that `login` declares. -/
  answered : ∀ done ∈ logins.ended, ∀ outcome, done.outcome = some outcome →
    ∀ error, login done.request.stage outcome = .raises error → error.IsAuthError

/-! ### The condition -/

/-- The pair's row is the one that was read, and its counter is below the end of
`SMALLINT`. -/
def Write.lands (rows : Rows) : Write → Bool
  | .insert row => (rows.find row.pair).isNone
  | .update loaded _ =>
      (rows.find loaded.pair).any fun stored =>
        stored.failCount = loaded.failCount ∧ stored.lockedUntil = loaded.lockedUntil ∧
          stored.failCount < 32767

/-- A failure that locks is not recorded in the second pass of the repeated hour in
autumn, where `now + LOCK_DURATION` falls into the first one. -/
def Write.forward : Write → Bool
  | .insert _ => true
  | .update _ current =>
      current.failCount < maxFails ∨
        plusSeconds current.updatedAt lockDuration > current.updatedAt

/-- The row that a transaction writes has not been changed by others since it was
read. -/
def undisturbedCall (request : Request) (entry : Sent) : Bool :=
  match request.stage, entry.statement with
  | .recordFailure, .execute write => write.lands entry.world.rows && write.forward
  | _, _ => true

/-- The statement sets a counter that is not zero yet. -/
def Sent.clears (entry : Sent) : Bool :=
  match entry.statement with
  | .execute (.update loaded _) => loaded.failCount ≠ 0
  | _ => false

/-- A success has read a counter that it resets, or there is still nothing to reset. -/
def undisturbedCommit (request : Request) (world : World) (transaction : Session) : Bool :=
  request.stage ≠ .resetFailures ∨ world.failCount request.pair = 0 ∨
    transaction.trace.any Sent.clears

def fitting (_ : World) (request : Request) : Bool :=
  fits 254 request.attempt.email && fits 45 request.attempt.ip

/-- Runs in which no write of a pair's row meets a row that it has not read. -/
def undisturbed : Policy World Unit Connection Statement Env Request where
  starts world request := fitting world request = true
  calls request entry := undisturbedCall request entry = true
  commits request world transaction := undisturbedCommit request world transaction = true
  aborts _ _ _ := True

/-! ### What the transactions do -/

section Programs

variable {session after : Session} {email ip : Str}

theorem ends_then {Value Final : Type} {first : Work Value} {next : Value → Work Final}
    {outcome : Except Error Final} :
    postgres.Ends (first >>= next) session outcome after ↔
      (∃ value middle, postgres.Ends first session (.ok value) middle ∧
        postgres.Ends (next value) middle outcome after) ∨
      ∃ error, outcome = .error error ∧ postgres.Ends first session (.error error) after :=
  Server.ends_bind

theorem sends_read {statement : Statement} {outcome : Except Error (Answer statement)}
    (reads : ∀ write, statement ≠ .execute write)
    (ended : postgres.Ends (send statement) session outcome after) :
    ∃ entry : Sent, entry.statement = statement ∧ entry.connection = session.connection ∧
      after = ⟨(), session.connection, session.trace ++ [entry]⟩ ∧
      ∃ memory, perform entry.world entry.env entry.others () session.connection statement =
        some (outcome, memory, session.connection) := by
  obtain ⟨world, env, others, memory, connection, _, performed, rfl⟩ :=
    Server.ends_send.mp ended
  rcases perform_journal performed with rfl | ⟨write, isWrite, _⟩
  · exact ⟨_, rfl, rfl, rfl, memory, performed⟩
  · exact absurd isWrite (reads write)

theorem ends_throttleRow {outcome : Except Error (Option LoginThrottle)}
    (ended : postgres.Ends (throttleRow email ip) session outcome after) :
    ∃ read : Sent, read.statement = .throttleRow email ip ∧ read.connection = session.connection ∧
      after = ⟨(), session.connection, session.trace ++ [read]⟩ ∧
      outcome = .ok ((session.connection.view read.world.rows).find (email, ip)) := by
  obtain ⟨read, asked, connection, isAfter, memory, performed⟩ := sends_read (by simp) ended
  refine ⟨read, asked, connection, isAfter, ?_⟩
  simp only [perform, Option.some.injEq, Prod.mk.injEq] at performed
  exact performed.1.symm

theorem ends_now {outcome : Except Error Instant}
    (ended : postgres.Ends (send .now) session outcome after) :
    ∃ clock : Sent, clock.statement = .now ∧ clock.connection = session.connection ∧
      after = ⟨(), session.connection, session.trace ++ [clock]⟩ ∧ outcome = .ok clock.env.now := by
  obtain ⟨clock, asked, connection, isAfter, memory, performed⟩ := sends_read (by simp) ended
  refine ⟨clock, asked, connection, isAfter, ?_⟩
  simp only [perform, Option.some.injEq, Prod.mk.injEq] at performed
  exact performed.1.symm

theorem ends_execute {write : Write} {outcome : Except Error Unit}
    (ended : postgres.Ends (send (.execute write)) session outcome after) :
    ∃ wrote : Sent, wrote.statement = .execute write ∧ wrote.connection = session.connection ∧
      after.trace = session.trace ++ [wrote] ∧
      outcome = write.check (session.connection.view wrote.world.rows) ∧
      (outcome = .ok () →
        after.connection = session.connection ++ [(wrote.world, .write write)]) := by
  obtain ⟨world, env, others, memory, connection, _, performed, rfl⟩ :=
    Server.ends_send.mp ended
  refine ⟨_, rfl, rfl, rfl, ?_⟩
  simp only [postgres, perform] at performed
  split at performed
  · cases performed
  · split at performed
    · rename_i failed
      cases performed
      exact ⟨failed.symm, fun isOk => by cases isOk⟩
    · rename_i valid
      cases performed
      exact ⟨valid.symm, fun _ => rfl⟩

/-- The write of a failure that has read `row`. -/
def failureWrite (email ip : Str) (row : Option LoginThrottle) (now : Instant) : Write :=
  match row with
  | none => .insert (LoginThrottle.failed ⟨email, ip, 0, none, now⟩ now)
  | some row => .update row (row.failed now)

/-- The write of a success that has read `row`. -/
def resetWrite (row : LoginThrottle) (now : Instant) : Write :=
  .update row { row with failCount := 0, lockedUntil := none, updatedAt := now }

/-- A transaction that has read its pair's row and the clock, and has then sent one
write. -/
structure Wrote (email ip : Str) (read clock wrote : Sent) (write : Write) (session : Session)
    (outcome : Except Error Unit) : Prop where
  reads : read.statement = .throttleRow email ip
  looks : clock.statement = .now
  executes : wrote.statement = .execute write
  trace : session.trace = [read, clock, wrote]
  checked : outcome = write.check wrote.world.rows
  journal : outcome = .ok () → session.connection = [(wrote.world, .write write)]

theorem ends_recordFailure {outcome : Except Error Unit} (fresh : session = ⟨(), [], []⟩)
    (ended : postgres.Ends (recordFailure email ip) session outcome after) :
    ∃ read clock wrote, Wrote email ip read clock wrote
      (failureWrite email ip (read.world.rows.find (email, ip)) clock.env.now) after outcome := by
  subst fresh
  rcases ends_then.mp ended with ⟨row, first, found, rest⟩ | ⟨_, _, failed⟩
  swap
  · obtain ⟨_, _, _, _, none⟩ := ends_throttleRow failed
    cases none
  obtain ⟨read, reads, _, rfl, isRow⟩ := ends_throttleRow found
  cases isRow
  rcases ends_then.mp rest with ⟨now, second, looked, rest⟩ | ⟨_, _, failed⟩
  swap
  · obtain ⟨_, _, _, _, none⟩ := ends_now failed
    cases none
  obtain ⟨clock, looks, _, rfl, isNow⟩ := ends_now looked
  cases isNow
  have executed : postgres.Ends (send (.execute (failureWrite email ip
      (read.world.rows.find (email, ip)) clock.env.now)))
      ⟨(), [], [] ++ [read] ++ [clock]⟩ outcome after := by
    unfold failureWrite
    change postgres.Ends (match read.world.rows.find (email, ip) with
      | none => _
      | some row => _) _ _ _ at rest
    split at rest <;> exact rest
  obtain ⟨wrote, executes, _, trace, checked, journal⟩ := ends_execute executed
  exact ⟨read, clock, wrote, reads, looks, executes, trace, checked, journal⟩

theorem ends_resetFailures {outcome : Except Error Unit} (fresh : session = ⟨(), [], []⟩)
    (ended : postgres.Ends (resetFailures email ip) session outcome after) :
    (∃ read : Sent, read.world.rows.find (email, ip) = none ∧ after = ⟨(), [], [read]⟩ ∧
      read.statement = .throttleRow email ip ∧ outcome = .ok ()) ∨
      ∃ read clock wrote row, read.world.rows.find (email, ip) = some row ∧
        Wrote email ip read clock wrote (resetWrite row clock.env.now) after outcome := by
  subst fresh
  rcases ends_then.mp ended with ⟨row, first, found, rest⟩ | ⟨_, _, failed⟩
  swap
  · obtain ⟨_, _, _, _, none⟩ := ends_throttleRow failed
    cases none
  obtain ⟨read, reads, _, rfl, isRow⟩ := ends_throttleRow found
  cases row with
  | none =>
      obtain ⟨rfl, rfl⟩ := rest
      exact .inl ⟨read, (Except.ok.inj isRow).symm, rfl, reads, rfl⟩
  | some row =>
      rcases ends_then.mp rest with ⟨now, second, looked, rest⟩ | ⟨_, _, failed⟩
      swap
      · obtain ⟨_, _, _, _, none⟩ := ends_now failed
        cases none
      obtain ⟨clock, looks, _, rfl, isNow⟩ := ends_now looked
      cases isNow
      obtain ⟨wrote, executes, _, trace, checked, journal⟩ := ends_execute rest
      exact .inr ⟨read, clock, wrote, row, (Except.ok.inj isRow).symm, reads, looks, executes,
        trace, checked, journal⟩

/-- A check writes nothing, and raises exactly when the row it has read locks the pair
at the time it reads the clock. -/
theorem ends_assertNotLocked {outcome : Except Error Unit} (fresh : session = ⟨(), [], []⟩)
    (ended : postgres.Ends (assertNotLocked email ip) session outcome after) :
    after.connection = [] ∧ (∃ read : Sent, read.statement = .throttleRow email ip ∧
      (∀ entry ∈ after.trace, entry.statement = .throttleRow email ip → entry = read) ∧
      ∀ row, read.world.rows.find (email, ip) = some row → row.Locks (clockRead after.trace) →
        ∃ seconds, outcome = .error (.accountLocked seconds)) ∧
      ∀ error, outcome = .error error → error.IsAuthError := by
  subst fresh
  rcases ends_then.mp ended with ⟨row, first, found, rest⟩ | ⟨_, _, failed⟩
  swap
  · obtain ⟨_, _, _, _, none⟩ := ends_throttleRow failed
    cases none
  obtain ⟨read, reads, _, rfl, isRow⟩ := ends_throttleRow found
  have isFound : read.world.rows.find (email, ip) = row := (Except.ok.inj isRow).symm
  cases isUntil : row.bind LoginThrottle.lockedUntil with
  | none =>
      rw [isUntil] at rest
      obtain ⟨rfl, rfl⟩ := rest
      refine ⟨rfl, ⟨read, reads, by simp, fun locked same locks => ?_⟩, by simp⟩
      obtain ⟨lockedUntil, isLocked, _⟩ := locks
      rw [← isFound, same, Option.bind_some, isLocked] at isUntil
      cases isUntil
  | some lockedUntil =>
      rw [isUntil] at rest
      rcases ends_then.mp rest with ⟨now, second, looked, rest⟩ | ⟨_, _, failed⟩
      swap
      · obtain ⟨_, _, _, _, none⟩ := ends_now failed
        cases none
      obtain ⟨clock, looks, _, rfl, isNow⟩ := ends_now looked
      cases isNow
      have only : ∀ entry ∈ [read, clock], entry.statement = .throttleRow email ip →
          entry = read := by
        intro entry member asked
        rcases List.mem_cons.mp member with rfl | isClock
        · rfl
        · rw [List.mem_singleton.mp isClock, looks] at asked
          cases asked
      split at rest
      · obtain ⟨rfl, rfl⟩ := rest
        refine ⟨rfl, ⟨read, reads, only, fun _ _ _ => ⟨_, rfl⟩⟩, ?_⟩
        rintro error ⟨rfl⟩
        trivial
      · rename_i expired
        obtain ⟨rfl, rfl⟩ := rest
        refine ⟨rfl, ⟨read, reads, only, fun locked same locks => ?_⟩, by simp⟩
        obtain ⟨limit, isLocked, later⟩ := locks
        rw [← isFound, same, Option.bind_some, isLocked] at isUntil
        cases isUntil
        have isClock : clockRead [read, clock] = clock.env.now := by
          simp [clockRead, reads, looks]
        exact absurd (isClock ▸ later) expired

theorem ends_verify {verifyPassword : Option Str → Str → Bool} {password : Str}
    {outcome : Except Error (Option Credentials)} (fresh : session = ⟨(), [], []⟩)
    (ended : postgres.Ends (verify verifyPassword email password) session outcome after) :
    after.connection = [] ∧ ∃ found, outcome = .ok found := by
  subst fresh
  rcases ends_then.mp ended with ⟨creds, first, looked, rest⟩ | ⟨_, _, failed⟩
  swap
  · obtain ⟨_, _, _, _, _, performed⟩ := sends_read (by simp) failed
    cases performed
  obtain ⟨_, _, _, rfl, _⟩ := sends_read (by simp) looked
  obtain ⟨rfl, rfl⟩ := rest
  exact ⟨rfl, _, rfl⟩

theorem ends_returning {work : Work Unit} {outcome : Except Error Result}
    (ended : postgres.Ends (do work; return none : Work Result) session outcome after) :
    ∃ first, postgres.Ends work session first after ∧ outcome = first.map fun _ => none := by
  rcases ends_then.mp ended with ⟨_, middle, ran, rfl, rfl⟩ | ⟨error, rfl, failed⟩
  · exact ⟨_, ran, rfl⟩
  · exact ⟨_, failed, rfl⟩

end Programs

/-- The ways in which a transaction of a login ends. -/
inductive Ran (request : Request) (session : Session) (outcome : Except Error Result) : Prop
  | looked (stage : request.stage = .assertNotLocked ∨ request.stage = .verify)
      (nothing : session.connection = [])
      (declared : ∀ error, outcome = .error error → error.IsAuthError)
  | absent (read : Sent) (stage : request.stage = .resetFailures)
      (reads : read.statement = .throttleRow request.attempt.email request.attempt.ip)
      (nothing : session = ⟨(), [], [read]⟩) (well : outcome = .ok none)
  | failed (read clock wrote : Sent) (first : Except Error Unit)
      (stage : request.stage = .recordFailure)
      (ran : Wrote request.attempt.email request.attempt.ip read clock wrote
        (failureWrite request.attempt.email request.attempt.ip
          (read.world.rows.find request.pair) clock.env.now) session first)
      (same : outcome = first.map fun _ => none)
  | reset (read clock wrote : Sent) (row : LoginThrottle) (first : Except Error Unit)
      (stage : request.stage = .resetFailures)
      (found : read.world.rows.find request.pair = some row)
      (ran : Wrote request.attempt.email request.attempt.ip read clock wrote
        (resetWrite row clock.env.now) session first)
      (same : outcome = first.map fun _ => none)

theorem ran_of_ends {verifyPassword : Option Str → Str → Bool} {request : Request} {world : World}
    {outcome : Except Error Result} {after : Session}
    (ended : (logins verifyPassword).Ends ((logins verifyPassword).program request)
      ((logins verifyPassword).opening world request) outcome after) :
    Ran request after outcome := by
  change postgres.Ends (request.body verifyPassword) ⟨(), [], []⟩ outcome after at ended
  unfold Request.body at ended
  split at ended
  · rename_i stage
    obtain ⟨first, ran, rfl⟩ := ends_returning ended
    obtain ⟨nothing, _, declared⟩ := ends_assertNotLocked rfl ran
    refine .looked (.inl stage) nothing fun error failed => ?_
    cases first with
    | ok _ => cases failed
    | error raised =>
        cases failed
        exact declared _ rfl
  · rename_i stage
    obtain ⟨nothing, found, rfl⟩ := ends_verify rfl ended
    exact .looked (.inr stage) nothing nofun
  · rename_i stage
    obtain ⟨first, ran, rfl⟩ := ends_returning ended
    obtain ⟨read, clock, wrote, ran⟩ := ends_recordFailure rfl ran
    exact .failed read clock wrote first stage ran rfl
  · rename_i stage
    obtain ⟨first, ran, rfl⟩ := ends_returning ended
    rcases ends_resetFailures rfl ran with ⟨read, _, rfl, reads, rfl⟩ |
      ⟨read, clock, wrote, row, found, ran⟩
    · exact .absent read stage reads rfl rfl
    · exact .reset read clock wrote row first stage found ran rfl

/-! ### What a write does to its pair -/

section Writes

variable {rows later : Rows} {row : LoginThrottle} {now : Instant} {pair : Pair}
variable {email ip : Str}

def Nonnegative (rows : Rows) : Prop :=
  ∀ row ∈ rows, 0 ≤ row.failCount

theorem Nonnegative.insert (nonnegative : Nonnegative rows) (positive : 0 ≤ row.failCount) :
    Nonnegative (rows.insert row) := by
  intro other member
  rcases Table.mem_insert.mp member with old | ⟨rfl, _⟩
  · exact nonnegative other old
  · exact positive

theorem Nonnegative.update {current : LoginThrottle} (nonnegative : Nonnegative rows)
    (positive : 0 ≤ current.failCount) :
    Nonnegative (rows.update pair (LoginThrottle.changed row current)) := by
  intro other member
  obtain ⟨stored, storedIn, rfl⟩ := (Table.mem_update (by simp)).mp member
  have old := nonnegative stored storedIn
  split
  · simp only [LoginThrottle.changed, column]
    split
    · exact old
    · exact positive
  · exact old

theorem Nonnegative.found (nonnegative : Nonnegative rows) (found : rows.find pair = some row) :
    0 ≤ row.failCount :=
  nonnegative row (Table.mem_of_find found)

theorem Nonnegative.failure {read : Rows} (nonnegative : Nonnegative rows)
    (readNonnegative : Nonnegative read) :
    Nonnegative ((failureWrite email ip (read.find (email, ip)) now).apply rows) := by
  unfold failureWrite
  split
  · exact nonnegative.insert (by simp [LoginThrottle.failed])
  · rename_i loaded found
    have old := readNonnegative.found found
    exact nonnegative.update (by simp only [LoginThrottle.failed]; omega)

theorem failureWrite_pair {read : Rows} :
    (failureWrite email ip (read.find (email, ip)) now).pair = (email, ip) := by
  unfold failureWrite
  split
  · rfl
  · rename_i loaded found
    exact Table.key_of_find found

theorem failureWrite_valid {read : Rows} (readNonnegative : Nonnegative read)
    (fitting : fits 254 email = true ∧ fits 45 ip = true)
    (lands : (failureWrite email ip (read.find (email, ip)) now).lands rows = true) :
    (failureWrite email ip (read.find (email, ip)) now).check rows = .ok () := by
  cases found : read.find (email, ip) with
  | none =>
      simp only [found, failureWrite, Write.lands, LoginThrottle.pair, LoginThrottle.failed,
        Option.isNone_iff_eq_none] at lands
      simp [failureWrite, Write.check, lands, LoginThrottle.pair, LoginThrottle.failed, fitting,
        fitsSmallInt]
  | some loaded =>
      simp only [found, failureWrite, Write.lands, Option.any_eq_true, decide_eq_true_eq] at lands
      obtain ⟨stored, isStored, count, _, below⟩ := lands
      have old := readNonnegative.found found
      have small : fitsSmallInt (loaded.failed now).failCount = true := by
        refine decide_eq_true ?_
        simp only [LoginThrottle.failed]
        omega
      simp [failureWrite, Write.check, isStored, small]

/-- **One failure.** It adds one to the counter of its pair, and from the fifth on it
locks the pair. -/
theorem failureWrite_counts {read : Rows}
    (lands : (failureWrite email ip (read.find (email, ip)) now).lands rows = true)
    (forward : (failureWrite email ip (read.find (email, ip)) now).forward = true)
    (kept : later.find (email, ip) = rows.find (email, ip)) :
    ∃ row, ((failureWrite email ip (read.find (email, ip)) now).apply later).find (email, ip) =
        some row ∧
      row.failCount = (later.find (email, ip)).elim 0 LoginThrottle.failCount + 1 ∧
      (row.failCount ≥ maxFails → row.Locks now) := by
  cases found : read.find (email, ip) with
  | none =>
      simp only [found, failureWrite, Write.lands, LoginThrottle.pair, LoginThrottle.failed,
        Option.isNone_iff_eq_none] at lands
      have isNone : later.find (email, ip) = none := kept.trans lands
      refine ⟨LoginThrottle.failed ⟨email, ip, 0, none, now⟩ now, ?_, ?_, ?_⟩
      · rw [failureWrite, Write.apply, Table.find_insert, isNone]
        simp [LoginThrottle.pair, LoginThrottle.failed]
      · rw [isNone]
        rfl
      · intro many
        simp [LoginThrottle.failed, maxFails] at many
  | some loaded =>
      simp only [found, failureWrite, Write.lands, Option.any_eq_true, decide_eq_true_eq] at lands
      obtain ⟨stored, isStored, count, locked, _⟩ := lands
      have isPair : loaded.pair = (email, ip) := Table.key_of_find found
      rw [isPair] at isStored
      have isLater : later.find (email, ip) = some stored := kept.trans isStored
      refine ⟨LoginThrottle.changed loaded (loaded.failed now) stored, ?_, ?_, ?_⟩
      · rw [failureWrite, Write.apply, isPair, Table.find_update_same (by simp), isLater]
        rfl
      · rw [isLater]
        simp [LoginThrottle.changed, LoginThrottle.failed, column, count]
      · intro many
        have isMany : loaded.failCount + 1 ≥ maxFails := by
          simpa [LoginThrottle.changed, LoginThrottle.failed, column] using many
        have isUntil : (LoginThrottle.changed loaded (loaded.failed now) stored).lockedUntil =
            some (plusSeconds now lockDuration) := by
          simp only [LoginThrottle.changed, LoginThrottle.failed, column, if_pos isMany]
          split
          · rename_i same
            rw [locked, ← same]
          · rfl
        refine ⟨_, isUntil, ?_⟩
        simp only [found, failureWrite, Write.forward, LoginThrottle.failed,
          decide_eq_true_eq] at forward
        rcases forward with few | ahead
        · omega
        · exact ahead

/-- **One success.** It sets the counter of its pair to zero. -/
theorem resetWrite_clears (isPair : row.pair = pair)
    (clears : row.failCount ≠ 0 ∨ (later.find pair).elim 0 LoginThrottle.failCount = 0) :
    (((resetWrite row now).apply later).find pair).elim 0 LoginThrottle.failCount = 0 := by
  simp only [resetWrite, Write.apply, isPair]
  rw [Table.find_update_same (by simp)]
  cases isLater : later.find pair with
  | none => rfl
  | some stored =>
      simp only [Option.map_some, Option.elim_some, LoginThrottle.changed, column]
      split
      · rename_i zero
        rcases clears with nonzero | zeroLater
        · exact absurd zero.symm nonzero
        · rwa [isLater] at zeroLater
      · rfl

end Writes

/-! ### One transaction -/

section Transactions

variable {verifyPassword : Option Str → Str → Bool}
variable {request : Request} {start now : World} {session : Session}

/-- The invariant of the committed rows. -/
def Counting (world : World) : Prop :=
  Nonnegative world.rows

def Keeps (before after : World) : Prop :=
  ∀ pair, (before.rows.find pair).isSome = true → (after.rows.find pair).isSome = true

theorem Write.keeps (write : Write) (rows : Rows) (pair : Pair)
    (there : (rows.find pair).isSome = true) : ((write.apply rows).find pair).isSome = true := by
  cases write with
  | insert row =>
      rw [Write.apply, Table.find_insert]
      simp [there]
  | update loaded current =>
      rw [Write.apply, Table.find_update (by simp)]
      split
      · simpa using there
      · exact there

abbrev Chained (verifyPassword : Option Str → Str → Bool) (request : Request) (start : World)
    (session : Session) (now : World) : Prop :=
  Chain (logins verifyPassword) undisturbed readCommitted Counting Keeps request start
    session now

section Wrote

variable {email ip : Str} {read clock wrote : Sent} {write : Write} {outcome : Except Error Unit}

theorem Wrote.view (ran : Wrote email ip read clock wrote write session outcome)
    (well : outcome = .ok ()) (rows : Rows) :
    session.connection.view rows = write.apply rows := by
  rw [ran.journal well]
  rfl

theorem Wrote.clockRead (ran : Wrote email ip read clock wrote write session outcome) :
    clockRead session.trace = clock.env.now := by
  simp [ran.trace, Throttle.clockRead, ran.reads, ran.looks]

theorem Wrote.kept (ran : Wrote email ip read clock wrote write session outcome)
    (well : outcome = .ok ()) (chain : Chained verifyPassword request start session now) :
    now.rows.find write.pair = wrote.world.rows.find write.pair := by
  refine chain.kept (write.pair, wrote.world) ?_
  change _ ∈ held Rows session.connection
  rw [ran.journal well]
  simp [held, Journal.refs, Writes.footprint]

theorem Wrote.readCounting (ran : Wrote email ip read clock wrote write session outcome)
    (chain : Chained verifyPassword request start session now) : Nonnegative read.world.rows :=
  (chain.seen read (by simp [ran.trace])).1

end Wrote

/-- A failure's write lands on the row that was read. -/
theorem lands_of_chain {read clock wrote : Sent} {write : Write} {outcome : Except Error Unit}
    (stage : request.stage = .recordFailure)
    (ran : Wrote request.attempt.email request.attempt.ip read clock wrote write session outcome)
    (chain : Chained verifyPassword request start session now) :
    write.lands wrote.world.rows = true ∧ write.forward = true := by
  have called : undisturbedCall request wrote = true :=
    (chain.seen wrote (by simp [ran.trace])).2.2.1
  simpa [undisturbedCall, stage, ran.executes] using called

theorem first_of_map {first : Except Error Unit} {result : Result}
    (well : (.ok result : Except Error Result) = first.map fun _ => none) : first = .ok () := by
  cases first with
  | ok _ => rfl
  | error _ => cases well

variable (verifyPassword) in
theorem discipline :
    Discipline (logins verifyPassword) undisturbed readCommitted Counting Keeps where
  refl _ _ there := there
  trans := fun one two pair there => two pair (one pair there)
  advance := fun counting _ => ⟨counting, fun _ there => there⟩
  commit := by
    intro request start session result now commits
    have counting : Nonnegative now.rows := commits.nowInv
    change Nonnegative (session.connection.view now.rows) ∧
      Keeps now { now with rows := session.connection.view now.rows }
    cases ran_of_ends commits.ends with
    | looked _ nothing _ =>
        rw [nothing]
        exact ⟨counting, fun _ there => there⟩
    | absent read _ _ nothing _ =>
        rw [nothing]
        exact ⟨counting, fun _ there => there⟩
    | failed read clock wrote first stage ran same =>
        rw [ran.view (first_of_map same)]
        exact ⟨counting.failure (ran.readCounting commits.chain), Write.keeps _ _⟩
    | reset read clock wrote row first stage found ran same =>
        rw [ran.view (first_of_map same)]
        exact ⟨counting.update (by simp), Write.keeps _ _⟩

/-- The committed counter of a pair is its tally, and a full tally locks it. -/
structure Tallied (world : World) (ended : List Done) (pair : Pair) : Prop where
  counted : world.failCount pair = (tally ended pair).count
  locked : (tally ended pair).count ≥ maxFails →
    ∃ row, world.rows.find pair = some row ∧ row.Locks (tally ended pair).last

/-- So it is for every pair. -/
def AllTallied (world : World) (ended : List Done) : Prop :=
  ∀ pair, Tallied world ended pair

theorem tally_append (ended : List Done) (done : Done) (pair : Pair) :
    tally (ended ++ [done]) pair = (tally ended pair).next pair done := by
  simp [tally]

theorem Tallied.same {world later : World} {ended : List Done} {done : Done} {pair : Pair}
    (tallied : Tallied world ended pair) (row : later.rows.find pair = world.rows.find pair)
    (next : (tally ended pair).next pair done = tally ended pair) :
    Tallied later (ended ++ [done]) pair := by
  constructor
  · rw [tally_append, next, ← tallied.counted, World.failCount, World.failCount, row]
  · rw [tally_append, next, row]
    exact tallied.locked

section Ends

variable {world : World} {ended : List Done} {result : Result} {pair : Pair}
variable {read clock wrote : Sent} {row : LoginThrottle}

theorem Tallied.failed (tallied : Tallied world ended pair)
    (stage : request.stage = .recordFailure)
    (ran : Wrote request.attempt.email request.attempt.ip read clock wrote
      (failureWrite request.attempt.email request.attempt.ip
        (read.world.rows.find request.pair) clock.env.now) session (.ok ()))
    (chain : Chained verifyPassword request start session world) :
    Tallied { world with rows := session.connection.view world.rows }
      (ended ++ [⟨request, session, world, some (.ok result)⟩]) pair := by
  rw [ran.view rfl]
  have isPair : (failureWrite request.attempt.email request.attempt.ip
      (read.world.rows.find request.pair) clock.env.now).pair = request.pair := failureWrite_pair
  by_cases own : request.pair = pair
  · subst own
    obtain ⟨lands, forward⟩ := lands_of_chain stage ran chain
    have kept := ran.kept rfl chain
    rw [isPair] at kept
    obtain ⟨row, found, count, locks⟩ := failureWrite_counts lands forward kept
    have next : (tally ended request.pair).next request.pair
        ⟨request, session, world, some (.ok result)⟩ =
          ⟨(tally ended request.pair).count + 1, clock.env.now⟩ := by
      simp [Tally.next, stage, ran.clockRead]
    have counted : row.failCount = (tally ended request.pair).count + 1 := by
      rw [count, ← tallied.counted]
      rfl
    constructor
    · rw [tally_append, next, ← counted]
      exact congrArg (fun row => Option.elim row 0 LoginThrottle.failCount) found
    · rw [tally_append, next]
      exact fun many => ⟨row, found, locks (counted ▸ many)⟩
  · refine tallied.same (SameRow.frame fun inside => own ?_) (by simp [Tally.next, own])
    rw [List.mem_singleton.mp inside]
    exact isPair.symm

theorem Tallied.cleared (tallied : Tallied world ended pair)
    (stage : request.stage = .resetFailures) {rows : Rows}
    (others : request.pair ≠ pair → rows.find pair = world.rows.find pair)
    (zero : (rows.find request.pair).elim 0 LoginThrottle.failCount = 0) :
    Tallied { world with rows := rows }
      (ended ++ [⟨request, session, world, some (.ok result)⟩]) pair := by
  by_cases own : request.pair = pair
  · subst own
    have next : (tally ended request.pair).next request.pair
        ⟨request, session, world, some (.ok result)⟩ =
          ⟨0, (tally ended request.pair).last⟩ := by
      simp [Tally.next, stage]
    constructor
    · rw [tally_append, next]
      exact zero
    · rw [tally_append, next]
      intro many
      simp [maxFails] at many
  · exact tallied.same (others own) (by simp [Tally.next, own])

/-- The counter that a success meets is the one that it resets, or is zero. -/
theorem clears_of_commit (stage : request.stage = .resetFailures)
    (allowed : undisturbedCommit request world session = true)
    (ran : Wrote request.attempt.email request.attempt.ip read clock wrote
      (resetWrite row clock.env.now) session (.ok ())) :
    row.failCount ≠ 0 ∨ world.failCount request.pair = 0 := by
  have entries : world.failCount request.pair = 0 ∨
      ∃ entry ∈ session.trace, Sent.clears entry = true := by
    simpa [undisturbedCommit, stage] using allowed
  rcases entries with zero | ⟨entry, member, clears⟩
  · exact .inr zero
  · rw [ran.trace] at member
    simp only [List.mem_cons, List.not_mem_nil, or_false] at member
    rcases member with rfl | rfl | rfl
    · simp [Sent.clears, ran.reads] at clears
    · simp [Sent.clears, ran.looks] at clears
    · exact .inl (by simpa [Sent.clears, ran.executes, resetWrite] using clears)

/-- **One step of the history.** The end of a transaction changes the counter of its
pair as it changes the tally. -/
theorem Tallied.leave {done : Done}
    (isOver : Over (logins verifyPassword) undisturbed readCommitted Counting Keeps
      done.world done)
    (tallied : Tallied done.world ended pair) :
    Tallied ((logins verifyPassword).leave done) (ended ++ [done]) pair := by
  obtain ⟨request, session, world, outcome⟩ := done
  rcases outcome with none | error | result
  · exact tallied.same rfl rfl
  · exact tallied.same rfl rfl
  obtain ⟨start, commits⟩ := isOver.commits rfl
  have allowed : undisturbedCommit request world session = true := commits.commits
  have chain : Chained verifyPassword request start session world := commits.chain
  have ran : Ran request session (.ok result) := ran_of_ends commits.ends
  change Tallied { world with rows := session.connection.view world.rows } _ _
  cases ran with
  | looked stage nothing _ =>
      refine tallied.same (by rw [nothing]; rfl) ?_
      rcases stage with stage | stage <;> simp [Tally.next, stage]
  | absent read stage reads nothing _ =>
      subst nothing
      have zero : world.failCount request.pair = 0 := by
        simpa [undisturbedCommit, stage, Sent.clears, reads] using allowed
      exact tallied.cleared stage (fun _ => rfl) zero
  | failed read clock wrote first stage ran same =>
      rw [first_of_map same] at ran
      exact tallied.failed stage ran chain
  | reset read clock wrote row first stage found ran same =>
      rw [first_of_map same] at ran
      rw [ran.view rfl]
      have isPair : row.pair = request.pair := Table.key_of_find found
      refine tallied.cleared stage (fun other => SameRow.frame fun inside => other ?_)
        (resetWrite_clears isPair (clears_of_commit stage allowed ran))
      rw [List.mem_singleton.mp inside]
      exact isPair.symm

/-- A check that reads a row locked at the time it looks refuses its call. -/
theorem refused_of_ends {outcome : Except Error Result} (stage : request.stage = .assertNotLocked)
    (ended : (logins verifyPassword).Ends ((logins verifyPassword).program request)
      ((logins verifyPassword).opening start request) outcome session)
    (member : read ∈ session.trace)
    (reads : read.statement = .throttleRow request.attempt.email request.attempt.ip)
    (found : read.world.rows.find request.pair = some row)
    (locks : row.Locks (clockRead session.trace)) :
    ∃ seconds, login request.stage outcome = .raises (.accountLocked seconds) := by
  change postgres.Ends (request.body verifyPassword) ⟨(), [], []⟩ outcome session at ended
  unfold Request.body at ended
  rw [stage] at ended
  obtain ⟨first, ran, rfl⟩ := ends_returning ended
  obtain ⟨_, ⟨only, _, same, raises⟩, _⟩ := ends_assertNotLocked rfl ran
  obtain ⟨seconds, rfl⟩ := raises row (same read member reads ▸ found) locks
  exact ⟨seconds, rfl⟩

theorem answered_of_ran {outcome : Except Error Result} {error : Error}
    (ran : Ran request session outcome) (fitting : fitting start request = true)
    (chain : Chained verifyPassword request start session now)
    (raises : login request.stage outcome = .raises error) : error.IsAuthError := by
  cases ran with
  | looked stage _ declared =>
      rcases outcome with failed | result
      · cases raises
        exact declared _ rfl
      · rcases stage with stage | stage
        · rw [stage] at raises
          cases raises
        · rw [stage] at raises
          cases result <;> cases raises
  | absent read stage _ _ well =>
      rw [well, stage] at raises
      cases raises
  | failed read clock wrote first stage ran same =>
      obtain ⟨lands, _⟩ := lands_of_chain stage ran chain
      have valid := failureWrite_valid (ran.readCounting chain)
        (by simpa [Throttle.fitting] using fitting) lands
      have well : first = .ok () := ran.checked.trans valid
      rw [same, well, stage] at raises
      cases raises
      trivial
  | reset read clock wrote row first stage found ran same =>
      have ordered := chain.ordered
      rw [ran.trace] at ordered
      have there : (wrote.world.rows.find request.pair).isSome = true :=
        List.rel_of_pairwise_cons ordered (by simp) request.pair
          (show (read.world.rows.find request.pair).isSome = true by simp [found])
      have isPair : row.pair = request.pair := Table.key_of_find found
      have valid : (resetWrite row clock.env.now).check wrote.world.rows = .ok () := by
        simp [resetWrite, Write.check, fitsSmallInt, isPair, Option.isSome_iff_ne_none.mp there]
      rw [same, ran.checked, valid, stage] at raises
      cases raises

end Ends

end Transactions

/-! ### Whole runs -/

def fresh (clock : Instant) : Logins :=
  ⟨⟨.empty, clock⟩, [], []⟩

theorem fresh_sound (verifyPassword : Option Str → Str → Bool) (clock : Instant) :
    Sound (logins verifyPassword) undisturbed readCommitted Counting Keeps (fresh clock) :=
  .quiet fun _ member => absurd member List.not_mem_nil

/-- **Brute-force bound.** In every interleaving of login transactions in which no write
of a pair's row meets a row that it has not read, the guard counts every failure, locks at
the fifth and answers every failing call. -/
theorem brute_force_bound (verifyPassword : Option Str → Str → Bool) {clock : Instant}
    {config : Logins}
    (reached : Reachable (logins verifyPassword) undisturbed (fresh clock) config) :
    Guarded config := by
  have laws := logins_laws verifyPassword
  have sound :=
    (fresh_sound verifyPassword clock).reachable laws (discipline verifyPassword) reached
  have tallied : AllTallied config.world config.ended := by
    refine Sound.recorded laws (discipline verifyPassword) ?_ ?_
      (fresh_sound verifyPassword clock) ?_ reached
    · exact fun _ _ tallied pair => ⟨(tallied pair).counted, (tallied pair).locked⟩
    · exact fun isOver tallied pair => (tallied pair).leave isOver
    · exact fun _ => ⟨rfl, fun many => by simp [fresh, tally, maxFails] at many⟩
  refine ⟨fun pair => (tallied pair).counted, fun pair => (tallied pair).locked, ?_, ?_⟩
  · intro done member stage read inTrace reads row found locks outcome isOutcome
    obtain ⟨_, _, start, _, _, _, ends, _⟩ := sound.1.concluded done member
    exact refused_of_ends stage (ends outcome isOutcome) inTrace reads found locks
  · intro done member outcome isOutcome error raises
    obtain ⟨_, _, start, starts, _, chain, ends, _⟩ := sound.1.concluded done member
    exact answered_of_ran (ran_of_ends (ends outcome isOutcome)) starts chain raises

/-! ### Concrete calls -/

def guess : Attempt :=
  ⟨"lock@co.de".toList, "nope".toList, "5.5.5.5".toList⟩

def stepAt (index : Nat) (now : Instant) : Choice Env Request :=
  .run index ⟨now, none⟩

def prelude (now : Instant) : List (Choice Env Request) :=
  [.start ⟨guess, .assertNotLocked⟩, stepAt 0 (now + 1), .finish 0,
    .start ⟨guess, .verify⟩, stepAt 0 (now + 2), .finish 0]

def failing (now : Instant) : List (Choice Env Request) :=
  prelude now ++ [.start ⟨guess, .recordFailure⟩, stepAt 0 (now + 3), stepAt 0 (now + 4),
    stepAt 0 (now + 5), .finish 0]

/-- Two failing calls whose last transactions read the same row. -/
def race (now : Instant) : List (Choice Env Request) :=
  prelude now ++ prelude (now + 2) ++
    [.start ⟨guess, .recordFailure⟩, .start ⟨guess, .recordFailure⟩,
      stepAt 0 (now + 5), stepAt 1 (now + 6), stepAt 0 (now + 7), stepAt 1 (now + 8),
      stepAt 0 (now + 9), .finish 0, stepAt 0 (now + 10), .finish 0]

/-- Five failing calls, and the check of a sixth one. -/
def sixCalls : List (Choice Env Request) :=
  failing 0 ++ failing 10 ++ failing 20 ++ failing 30 ++ failing 40 ++
    [.start ⟨guess, .assertNotLocked⟩, stepAt 0 51, stepAt 0 52, .finish 0]

/-- Five failing calls, one after the other, lock the pair. -/
theorem brute_force_bound_six_calls :
    ∃ config, (logins fun _ _ => false).checkedSchedule
        (Policy.check fitting undisturbedCall undisturbedCommit true) (fresh 0) sixCalls =
          some config ∧
      Guarded config := by
  obtain ⟨config, ran⟩ := Option.isSome_iff_exists.mp (by decide +kernel :
    ((logins fun _ _ => false).checkedSchedule
      (Policy.check fitting undisturbedCall undisturbedCommit true) (fresh 0) sixCalls).isSome =
        true)
  exact ⟨config, ran, brute_force_bound (fun _ _ => false)
    (.of_checked (fun checked => Policy.allows_of_check (fun _ _ holds => holds)
      (fun _ _ holds => holds) (fun _ _ _ holds => holds) (fun _ _ _ _ => trivial) checked) ran)⟩

/-- Two attempts that read the same row lose a count; of two first attempts one fails on
the unique index. -/
theorem parallel_attempts_unguarded :
    ∃ config, Reachable (logins fun _ _ => false) .unrestricted (fresh 0) config ∧
      config.world.failCount (guess.email, guess.ip) = 2 ∧
      (tally config.ended (guess.email, guess.ip)).count = 3 ∧
      (∃ done ∈ config.ended, login done.request.stage (.error .integrity) = .raises .integrity ∧
        done.outcome = some (.error .integrity)) ∧
      ¬ Guarded config := by
  have violated : ((logins fun _ _ => false).schedule (fresh 0) (race 0 ++ race 20)).any
      (fun config => config.world.failCount (guess.email, guess.ip) = 2 &&
        (tally config.ended (guess.email, guess.ip)).count = 3 &&
        config.ended.any fun done => done.outcome = some (.error .integrity)) = true := by
    decide +kernel
  obtain ⟨config, ran, wrong⟩ := (Option.any_eq_true _ _).mp violated
  simp only [Bool.and_eq_true, decide_eq_true_eq, List.any_eq_true] at wrong
  obtain ⟨⟨stored, counted⟩, done, member, failed⟩ := wrong
  refine ⟨config, .of_schedule ran, stored, counted, ⟨done, member, rfl, failed⟩,
    fun guarded => ?_⟩
  have same := guarded.counted (guess.email, guess.ip)
  rw [stored, counted] at same
  cases same

end Fristenwaechter.Throttle
