import Fristenwaechter.Auth.Histories

/-!
Owns what the brute-force guard is for, over serial histories: when a call is locked out,
when it succeeds, what a failure leaves behind, and what one pair can notice of the others.
The row of a pair stands for the failures recorded since its last success; every call
keeps that, so each history answers as the failures say.
-/

namespace Fristenwaechter.Throttle

open Library (Table Keyed Writes Machine)

/-! ### What the guard is for -/

section Meaning

variable (libraries : Libraries)

/-- The email belongs to an active account whose stored hash verifies the password. -/
def Call.Verifies (call : Call) (accounts : Accounts) : Prop :=
  ∃ user ∈ accounts.table, user.email = libraries.normalizeEmail call.email ∧
    user.isActive = true ∧ libraries.verifyPassword user.passwordHash call.password = true

/-- What a call does to the recorded failures of a pair. -/
def Answered.leaves (pair : Pair) (failures : List Instant) (answered : Answered) :
    List Instant :=
  if answered.call.pair libraries = pair then
    match answered.outcome with
    | .ok () => []
    | .error .invalidCredentials => failures ++ [answered.call.now .recordFailure]
    | .error _ => failures
  else failures

/-- The times at which failures were recorded for a pair since its last success. -/
def failuresSince (log : List Answered) (pair : Pair) : List Instant :=
  log.foldl (Answered.leaves libraries pair) []

/-- At least five failures, and the instant is before the lock that the last one has stamped. -/
def Locked (failures : List Instant) (now : Instant) : Prop :=
  maxFails ≤ failures.length ∧
    ∃ last, failures.getLast? = some last ∧ now < plusSeconds last lockDuration

/-- The call fits the columns of the throttle. -/
def Call.Fits (call : Call) (log : List Answered) : Prop :=
  (call.attempt libraries).email.length ≤ 254 ∧ call.ip.length ≤ 45 ∧
    (failuresSince libraries log (call.pair libraries)).length < 32767

/-- A call after a history does exactly what the guard is for. -/
structure Exact (log : List Answered) (site : Site) (call : Call) (answered : Answered)
    (next : Site) : Prop where
  locked : (∃ seconds, answered.outcome = .error (.accountLocked seconds)) ↔
    Locked (failuresSince libraries log (call.pair libraries)) (call.now .assertNotLocked)
  /-- A locked-out call runs its first transaction only, and changes no row. -/
  refused : Locked (failuresSince libraries log (call.pair libraries))
      (call.now .assertNotLocked) →
    answered.stages = [.assertNotLocked] ∧ next = site
  succeeds : ¬ Locked (failuresSince libraries log (call.pair libraries))
      (call.now .assertNotLocked) →
    (answered.outcome = .ok () ↔ call.Verifies libraries site.accounts)
  /-- A failure is counted by one in the committed rows. -/
  recorded : ¬ Locked (failuresSince libraries log (call.pair libraries))
      (call.now .assertNotLocked) → ¬ call.Verifies libraries site.accounts →
    answered.outcome = .error .invalidCredentials ∧ next.accounts = site.accounts ∧
      (next.rows.find (call.pair libraries)).elim 0 LoginThrottle.failCount =
        (site.rows.find (call.pair libraries)).elim 0 LoginThrottle.failCount + 1 ∧
      ∀ other ≠ call.pair libraries, next.rows.find other = site.rows.find other

def Event.concerns (pair : Pair) : Event → Bool
  | .call own => own.pair libraries = pair
  | .accounts _ => true

end Meaning

/-! ### One step of the guard -/

section Answers

variable {rows : Rows} {write : Write} {now : Instant}

theorem settle_of_ok (valid : write.check rows = .ok ()) :
    settle rows write = (.ok (), write.apply rows) := by
  simp [settle, valid]

theorem settle_of_error {error : Error} (failed : write.check rows = .error error) :
    settle rows write = (.error error, rows) := by
  simp [settle, failed]

theorem Write.find_apply_other {pair : Pair} (other : write.pair ≠ pair) :
    (write.apply rows).find pair = rows.find pair :=
  SameRow.frame fun inside => other (by simpa [Writes.footprint, eq_comm] using inside)

theorem answer_locked (attempted : Attempted) {seconds : Int}
    (left : lockLeft (rows.find attempted.pair) (attempted.now .assertNotLocked) = some seconds) :
    attempted.answer rows = (([.assertNotLocked], .error (.accountLocked seconds)), rows) := by
  simp [Attempted.answer, left]

theorem answer_verified (attempted : Attempted)
    (free : lockLeft (rows.find attempted.pair) (attempted.now .assertNotLocked) = none)
    (verified : attempted.verified = true) :
    (attempted.answer rows).1 = ([.assertNotLocked, .verify, .resetFailures], .ok ()) ∧
      ((attempted.answer rows).2.find attempted.pair).elim 0 LoginThrottle.failCount = 0 ∧
      ((attempted.answer rows).2.find attempted.pair).bind LoginThrottle.lockedUntil = none ∧
      ∀ other ≠ attempted.pair, (attempted.answer rows).2.find other = rows.find other := by
  unfold Attempted.answer
  rw [free]
  dsimp only
  rw [if_pos verified]
  unfold reset
  cases found : rows.find attempted.pair with
  | none => simp [found]
  | some row =>
      have isPair : row.pair = attempted.pair := Table.key_of_find found
      have valid : (resetWrite row (attempted.now .resetFailures)).check rows = .ok () := by
        simp [resetWrite, Write.check, fitsSmallInt, isPair, found]
      have after : ((resetWrite row (attempted.now .resetFailures)).apply rows).find
          attempted.pair = some (LoginThrottle.changed row
            { row with failCount := 0, lockedUntil := none,
                       updatedAt := attempted.now .resetFailures } row) := by
        simp only [resetWrite, Write.apply, isPair]
        rw [Table.find_update_same (by simp), found]
        rfl
      dsimp only
      rw [settle_of_ok valid]
      refine ⟨rfl, ?_, ?_, fun other different => Write.find_apply_other ?_⟩
      · rw [after]
        simp [LoginThrottle.changed]
      · rw [after]
        simp [LoginThrottle.changed]
      · exact isPair.trans_ne (Ne.symm different)

def failedRow (pair : Pair) (row : Option LoginThrottle) (now : Instant) : LoginThrottle :=
  (row.getD ⟨pair.1, pair.2, 0, none, now⟩).failed now

theorem failedRow_failCount {pair : Pair} {row : Option LoginThrottle} :
    (failedRow pair row now).failCount = row.elim 0 LoginThrottle.failCount + 1 := by
  cases row <;> rfl

theorem failureWrite_find {pair : Pair} :
    ((failureWrite pair.1 pair.2 (rows.find pair) now).apply rows).find pair =
      some (failedRow pair (rows.find pair) now) := by
  cases found : rows.find pair with
  | none =>
      rw [failureWrite, Write.apply, Table.find_insert, found]
      simp [failedRow, LoginThrottle.failed, LoginThrottle.pair]
  | some row =>
      have isPair : row.pair = pair := Table.key_of_find found
      rw [failureWrite, Write.apply, isPair, Table.find_update_same (by simp), found]
      simp [failedRow, LoginThrottle.failed, LoginThrottle.changed]

theorem failureWrite_check (rows : Rows) (pair : Pair) (now : Instant) :
    (failureWrite pair.1 pair.2 (rows.find pair) now).check rows =
      if (rows.find pair).elim (fits 254 pair.1 && fits 45 pair.2) (fun _ => true) &&
          fitsSmallInt (failedRow pair (rows.find pair) now).failCount then .ok ()
      else .error .data := by
  cases found : rows.find pair with
  | none =>
      simp only [failureWrite, Write.check, LoginThrottle.failed, LoginThrottle.pair, found]
      simp only [failedRow, LoginThrottle.failed, Option.getD_none, Option.elim_none]
      cases fits 254 pair.1 <;> cases fits 45 pair.2 <;> cases fitsSmallInt (0 + 1) <;> rfl
  | some row =>
      have isPair : row.pair = pair := Table.key_of_find found
      simp only [failureWrite, Write.check, isPair, found, failedRow, Option.getD_some,
        Option.elim_some, Bool.true_and]
      cases fitsSmallInt (row.failed now).failCount <;> rfl

theorem answer_failed (attempted : Attempted)
    (free : lockLeft (rows.find attempted.pair) (attempted.now .assertNotLocked) = none)
    (failed : attempted.verified = false) :
    (attempted.answer rows).1.1 = [.assertNotLocked, .verify, .recordFailure] ∧
      if (rows.find attempted.pair).elim
          (fits 254 attempted.pair.1 && fits 45 attempted.pair.2) (fun _ => true) &&
          fitsSmallInt (failedRow attempted.pair (rows.find attempted.pair)
            (attempted.now .recordFailure)).failCount then
        (attempted.answer rows).1.2 = .error .invalidCredentials ∧
          (attempted.answer rows).2.find attempted.pair =
            some (failedRow attempted.pair (rows.find attempted.pair)
              (attempted.now .recordFailure)) ∧
          ∀ other ≠ attempted.pair, (attempted.answer rows).2.find other = rows.find other
      else (attempted.answer rows).1.2 = .error .data ∧ (attempted.answer rows).2 = rows := by
  unfold Attempted.answer
  rw [free]
  dsimp only
  rw [if_neg (by simp [failed])]
  refine ⟨rfl, ?_⟩
  unfold record
  have checked := failureWrite_check rows attempted.pair (attempted.now .recordFailure)
  split
  · rename_i fitting
    rw [if_pos fitting] at checked
    rw [settle_of_ok checked]
    exact ⟨rfl, failureWrite_find, fun other different =>
      Write.find_apply_other (failureWrite_pair.trans_ne (Ne.symm different))⟩
  · rename_i tooLong
    rw [if_neg tooLong] at checked
    rw [settle_of_error checked]
    exact ⟨rfl, rfl⟩

end Answers

/-! ### What a row stands for -/

/-- A row holds the number of the failures and the lock of the last one. -/
structure Stands (row : Option LoginThrottle) (failures : List Instant) : Prop where
  count : row.elim 0 LoginThrottle.failCount = failures.length
  lock : row.bind LoginThrottle.lockedUntil =
    if maxFails ≤ failures.length then
      failures.getLast?.map fun last => plusSeconds last lockDuration
    else none

section Standing

variable {row : Option LoginThrottle} {failures : List Instant} {now : Instant} {pair : Pair}

theorem Stands.locked_iff (stands : Stands row failures) (now : Instant) :
    (∃ seconds, lockLeft row now = some seconds) ↔ Locked failures now := by
  unfold lockLeft Locked
  rw [stands.lock]
  by_cases many : maxFails ≤ failures.length
  · rw [if_pos many]
    cases failures.getLast? with
    | none => simp
    | some last => simp [many]
  · rw [if_neg many]
    simp [many]

theorem Stands.cleared (zero : row.elim 0 LoginThrottle.failCount = 0)
    (free : row.bind LoginThrottle.lockedUntil = none) : Stands row [] :=
  ⟨zero, free.trans (by simp [maxFails])⟩

theorem Stands.failed (stands : Stands row failures) :
    Stands (some (failedRow pair row now)) (failures ++ [now]) := by
  have count : (failedRow pair row now).failCount = failures.length + 1 := by
    rw [failedRow_failCount, stands.count]
  refine ⟨by simpa using count, ?_⟩
  have lock : (failedRow pair row now).lockedUntil =
      if maxFails ≤ failures.length + 1 then some (plusSeconds now lockDuration)
      else row.bind LoginThrottle.lockedUntil := by
    rw [← count]
    cases row <;> rfl
  rw [Option.bind_some, lock, List.length_append, List.getLast?_concat]
  push_cast
  by_cases many : maxFails ≤ (failures.length : Int) + 1
  · simp [many]
  · have few : ¬ maxFails ≤ (failures.length : Int) := by omega
    simp [many, stands.lock, few]

end Standing

section Steps

variable {libraries : Libraries} {site : Site} {call : Call}

theorem answer_other {rows : Rows} {attempted : Attempted} {pair : Pair}
    (other : pair ≠ attempted.pair) : (attempted.answer rows).2.find pair = rows.find pair := by
  cases left : lockLeft (rows.find attempted.pair) (attempted.now .assertNotLocked) with
  | some seconds => rw [answer_locked attempted left]
  | none =>
      cases verified : attempted.verified with
      | true => exact (answer_verified attempted left verified).2.2.2 pair other
      | false =>
          have recorded := (answer_failed attempted left verified).2
          split at recorded
          · exact recorded.2.2 pair other
          · rw [recorded.2]

/-- **One call.** Rows that stand for the recorded failures still do so after it. -/
theorem stands_answered (call : Call) {failures : Pair → List Instant}
    (stands : ∀ pair, Stands (site.rows.find pair) (failures pair)) (pair : Pair) :
    Stands (((call.attempted libraries site.accounts).answer site.rows).2.find pair)
      ((call.answered libraries site).leaves libraries pair (failures pair)) := by
  unfold Call.answered Answered.leaves
  by_cases own : call.pair libraries = pair
  · subst own
    rw [if_pos rfl]
    cases left : lockLeft (site.rows.find (call.pair libraries)) (call.now .assertNotLocked) with
    | some seconds =>
        rw [answer_locked (call.attempted libraries site.accounts) left]
        exact stands _
    | none =>
        cases verified : call.verified libraries site.accounts with
        | true =>
            obtain ⟨ran, zero, free, _⟩ := answer_verified
              (call.attempted libraries site.accounts) left verified
            rw [ran]
            exact .cleared zero free
        | false =>
            have recorded := (answer_failed
              (call.attempted libraries site.accounts) left verified).2
            split at recorded
            · rw [recorded.1]
              change Stands (_ : Option LoginThrottle) _
              rw [show ((call.attempted libraries site.accounts).answer site.rows).2.find
                (call.pair libraries) = _ from recorded.2.1]
              exact (stands _).failed
            · rw [recorded.1, recorded.2]
              exact stands _
  · rw [if_neg own, answer_other fun same => own same.symm]
    exact stands pair

/-- A history goes through, and the rows it leaves stand for the recorded failures. -/
theorem history_stands (events : List Event) {failures : Pair → List Instant}
    (stands : ∀ pair, Stands (site.rows.find pair) (failures pair)) :
    ∃ log last, history libraries site events = some (log, last) ∧
      ∀ pair, Stands (last.rows.find pair)
        (log.foldl (Answered.leaves libraries pair) (failures pair)) := by
  induction events generalizing site failures with
  | nil => exact ⟨[], site, rfl, stands⟩
  | cons event rest inductionHypothesis =>
      cases event with
      | accounts accounts => exact @inductionHypothesis ⟨site.rows, accounts⟩ _ stands
      | call call =>
          obtain ⟨log, last, goesOn, after⟩ := @inductionHypothesis
            (call.leaves libraries site) _ (stands_answered call stands)
          refine ⟨call.answered libraries site :: log, last, ?_, after⟩
          simp only [history, login_eq, Option.bind_eq_bind, Option.bind_some, goesOn]
          rfl

theorem account_eq_some_iff {accounts : Accounts} {email : Str} {user : AccountUser} :
    libraries.account accounts email = some user ↔
      user ∈ accounts.table ∧ user.email = libraries.sqlLower email := by
  unfold Libraries.account
  constructor
  · intro found
    exact ⟨List.mem_of_find?_eq_some found, by simpa using List.find?_some found⟩
  · rintro ⟨member, same⟩
    cases found : accounts.table.rows.find? fun user => user.email = libraries.sqlLower email with
    | none => exact absurd same (by simpa using List.find?_eq_none.mp found user member)
    | some other =>
        have otherEmail : other.email = libraries.sqlLower email := by
          simpa using List.find?_some found
        exact congrArg some (List.inj_on_of_nodup_map accounts.unique
          (List.mem_of_find?_eq_some found) member (otherEmail.trans same.symm))

theorem verified_iff (documented : libraries.Documented) {accounts : Accounts} :
    call.verified libraries accounts = true ↔ call.Verifies libraries accounts := by
  unfold Call.verified Call.Verifies
  rw [Option.any_eq_true]
  refine exists_congr fun user => ?_
  rw [account_eq_some_iff, Bool.and_eq_true, and_assoc]
  change _ ∧ user.email = libraries.sqlLower (libraries.normalizeEmail call.email) ∧ _ ↔ _
  rw [documented.lowered]

theorem fits_of_stands {log : List Answered} {row : Option LoginThrottle} (now : Instant)
    (fitting : call.Fits libraries log)
    (stands : Stands row (failuresSince libraries log (call.pair libraries))) :
    (row.elim (fits 254 (call.pair libraries).1 && fits 45 (call.pair libraries).2)
        (fun _ => true) &&
      fitsSmallInt (failedRow (call.pair libraries) row now).failCount) = true := by
  obtain ⟨email, ip, below⟩ := fitting
  have strings : (fits 254 (call.pair libraries).1 && fits 45 (call.pair libraries).2) = true := by
    rw [Bool.and_eq_true]
    exact ⟨decide_eq_true email, decide_eq_true ip⟩
  have small : fitsSmallInt (failedRow (call.pair libraries) row now).failCount = true := by
    rw [failedRow_failCount, stands.count]
    refine decide_eq_true ?_
    omega
  rw [small, Bool.and_true]
  cases row with
  | none => exact strings
  | some row => rfl

/-- **Exactness of one call.** -/
theorem exact_of_stands (documented : libraries.Documented) {log : List Answered}
    (stands : ∀ pair, Stands (site.rows.find pair) (failuresSince libraries log pair))
    (fitting : call.Fits libraries log) :
    Exact libraries log site call (call.answered libraries site) (call.leaves libraries site) := by
  have own := stands (call.pair libraries)
  have lockedIff := own.locked_iff (call.now .assertNotLocked)
  cases left : lockLeft (site.rows.find (call.pair libraries)) (call.now .assertNotLocked) with
  | some seconds =>
      have locked := lockedIff.mp ⟨seconds, left⟩
      have answer := answer_locked (call.attempted libraries site.accounts) left
      unfold Call.answered Call.leaves
      rw [answer]
      exact ⟨⟨fun _ => locked, fun _ => ⟨seconds, rfl⟩⟩, fun _ => ⟨rfl, rfl⟩,
        fun free => absurd locked free, fun free => absurd locked free⟩
  | none =>
      have free : ¬ Locked (failuresSince libraries log (call.pair libraries))
          (call.now .assertNotLocked) := by
        intro locked
        obtain ⟨seconds, some⟩ := lockedIff.mpr locked
        rw [left] at some
        cases some
      cases verified : call.verified libraries site.accounts with
      | true =>
          obtain ⟨ran, _⟩ := answer_verified
            (call.attempted libraries site.accounts) left verified
          have verifies := (verified_iff documented).mp verified
          unfold Call.answered
          rw [ran]
          exact ⟨⟨nofun, fun locked => absurd locked free⟩, fun locked => absurd locked free,
            fun _ => ⟨fun _ => verifies, fun _ => rfl⟩, fun _ fails => absurd verifies fails⟩
      | false =>
          have fails : ¬ call.Verifies libraries site.accounts := fun verifies =>
            absurd ((verified_iff documented).mpr verifies) (by simp [verified])
          obtain ⟨_, recorded⟩ := answer_failed
            (call.attempted libraries site.accounts) left verified
          have fitted := fits_of_stands (call.now .recordFailure) fitting own
          obtain ⟨ran, after, others⟩ := (if_pos fitted).mp recorded
          refine ⟨⟨?_, fun locked => absurd locked free⟩, fun locked => absurd locked free,
            fun _ => ⟨?_, fun verifies => absurd verifies fails⟩, fun _ _ => ⟨ran, ?_, ?_, others⟩⟩
          · rintro ⟨seconds, isLocked⟩
            cases ran.symm.trans isLocked
          · intro isOk
            cases ran.symm.trans isOk
          · unfold Call.leaves
            rw [ran]
          · change Option.elim (((call.attempted libraries site.accounts).answer site.rows).2.find
              (call.attempted libraries site.accounts).pair) _ _ = _
            rw [after]
            exact failedRow_failCount

end Steps

/-! ### What a pair can notice of the others -/

section Others

variable {libraries : Libraries}

theorem settle_congr {first second : Rows} {write : Write}
    (same : SameRow write.pair first second) :
    (settle first write).1 = (settle second write).1 ∧
      SameRow write.pair (settle first write).2 (settle second write).2 := by
  have checked := SameRow.check same
  unfold settle
  rw [checked]
  cases write.check first with
  | error error => exact ⟨rfl, same⟩
  | ok value =>
      refine ⟨rfl, SameRow.apply (fun own inside => ?_) same⟩
      rw [List.mem_singleton.mp inside]
      exact same

theorem record_congr {first second : Rows} {pair : Pair} (same : SameRow pair first second)
    (now : Instant) :
    (record first pair now).1 = (record second pair now).1 ∧
      SameRow pair (record first pair now).2 (record second pair now).2 := by
  have isPair : (failureWrite pair.1 pair.2 (first.find pair) now).pair = pair := failureWrite_pair
  unfold record
  rw [show second.find pair = first.find pair from same]
  have settled := settle_congr (isPair.symm ▸ same :
    SameRow (failureWrite pair.1 pair.2 (first.find pair) now).pair first second)
  rwa [isPair] at settled

theorem reset_congr {first second : Rows} {pair : Pair} (same : SameRow pair first second)
    (now : Instant) :
    (reset first pair now).1 = (reset second pair now).1 ∧
      SameRow pair (reset first pair now).2 (reset second pair now).2 := by
  unfold reset
  rw [show second.find pair = first.find pair from same]
  cases found : first.find pair with
  | none => exact ⟨rfl, same⟩
  | some row =>
      have isPair : (resetWrite row now).pair = pair := Table.key_of_find found
      have settled := settle_congr (isPair.symm ▸ same :
        SameRow (resetWrite row now).pair first second)
      rwa [isPair] at settled

theorem answer_congr {first second : Rows} {attempted : Attempted}
    (same : SameRow attempted.pair first second) :
    (attempted.answer first).1 = (attempted.answer second).1 ∧
      SameRow attempted.pair (attempted.answer first).2 (attempted.answer second).2 := by
  unfold Attempted.answer
  rw [show second.find attempted.pair = first.find attempted.pair from same]
  cases lockLeft (first.find attempted.pair) (attempted.now .assertNotLocked) with
  | some seconds => exact ⟨rfl, same⟩
  | none =>
      dsimp only
      split
      · obtain ⟨outcome, rows⟩ := reset_congr same (attempted.now .resetFailures)
        exact ⟨by rw [outcome], rows⟩
      · obtain ⟨outcome, rows⟩ := record_congr same (attempted.now .recordFailure)
        exact ⟨by rw [outcome], rows⟩

/-- The guard keeps pairs apart. -/
theorem guard_separate : guard.Separate Attempted.pair SameRow where
  output same := (answer_congr same).1
  own same := (answer_congr same).2
  other other same := Eq.trans same (answer_other (Ne.symm other)).symm

theorem verifyPassword_rehashed (documented : libraries.Documented) {salt hash password : Str}
    (verified : libraries.verify hash password = true) (filled : hash ≠ []) (other : Str) :
    libraries.verifyPassword (some (libraries.hashPassword salt password)) other =
      libraries.verifyPassword (some hash) other := by
  have same : libraries.verify (libraries.hashPassword salt password) other =
      libraries.verify hash other := by
    rw [Bool.eq_iff_iff, documented.hashed]
    constructor
    · rintro rfl
      exact verified
    · exact fun alsoOther => documented.one alsoOther verified
  simp [Libraries.verifyPassword, same, documented.encoded, filled]

theorem rehashed_verifies (documented : libraries.Documented) {call : Call} {accounts : Accounts}
    (own : call.Verifies libraries accounts) (other : Call) :
    other.Verifies libraries (call.rehashed libraries accounts) ↔
      other.Verifies libraries accounts := by
  obtain ⟨user, member, isEmail, _, verified⟩ := own
  have found : libraries.account accounts (call.attempt libraries).email = some user := by
    refine account_eq_some_iff.mpr ⟨member, isEmail.trans ?_⟩
    exact (documented.lowered call.email).symm
  unfold Call.rehashed
  rw [found]
  dsimp only
  cases isHash : user.passwordHash with
  | none => rfl
  | some hash =>
      dsimp only
      split
      · rw [isHash] at verified
        have filled : hash ≠ [] ∧ libraries.verify hash call.password = true := by
          simpa [Libraries.verifyPassword] using verified
        have alike : ∀ stored ∈ accounts.table, stored.id = user.id → ∀ password,
            libraries.verifyPassword
                (some (libraries.hashPassword call.salt call.password)) password =
              libraries.verifyPassword stored.passwordHash password := by
          intro stored storedIn sameId password
          rw [Table.eq_of_key storedIn member sameId, isHash]
          exact verifyPassword_rehashed documented filled.2 filled.1 password
        unfold Call.Verifies Accounts.rehash
        constructor
        · rintro ⟨after, afterIn, email, active, verifies⟩
          obtain ⟨stored, storedIn, rfl⟩ := (Table.mem_update (key_withHash _)).mp afterIn
          refine ⟨stored, storedIn, ?_⟩
          split at email
          · rename_i sameId
            rw [if_pos sameId] at active verifies
            exact ⟨email, active, (alike stored storedIn sameId _).symm.trans verifies⟩
          · rename_i otherId
            rw [if_neg otherId] at active verifies
            exact ⟨email, active, verifies⟩
        · rintro ⟨stored, storedIn, email, active, verifies⟩
          refine ⟨_, (Table.mem_update (key_withHash _)).mpr ⟨stored, storedIn, rfl⟩, ?_⟩
          split
          · rename_i sameId
            exact ⟨email, active, (alike stored storedIn sameId _).trans verifies⟩
          · exact ⟨email, active, verifies⟩
      · rfl

theorem verified_of_ok {rows : Rows} {attempted : Attempted} {value : Unit}
    (isOk : (attempted.answer rows).1.2 = .ok value) : attempted.verified = true := by
  cases verified : attempted.verified with
  | true => rfl
  | false =>
      cases left : lockLeft (rows.find attempted.pair) (attempted.now .assertNotLocked) with
      | some seconds =>
          rw [answer_locked attempted left] at isOk
          cases isOk
      | none =>
          have recorded := (answer_failed attempted left verified).2
          split at recorded
          · cases recorded.1.symm.trans isOk
          · cases recorded.1.symm.trans isOk

/-- No call changes what verifies. -/
theorem leaves_verified (documented : libraries.Documented) (call : Call) (site : Site)
    (other : Call) :
    other.verified libraries (call.leaves libraries site).accounts =
      other.verified libraries site.accounts := by
  unfold Call.leaves
  dsimp only
  split
  · rename_i outcome isOk
    cases verified : call.verified libraries site.accounts with
    | true =>
        rw [Bool.eq_iff_iff, verified_iff documented, verified_iff documented]
        exact rehashed_verifies documented ((verified_iff documented).mp verified) other
    | false => exact absurd (verified_of_ok isOk) (by simp [Call.attempted, verified])
  · rfl

theorem attempts_filter (accounts : Accounts) (events : List Event) (pair : Pair) :
    attempts libraries accounts (events.filter (Event.concerns libraries pair)) =
      (attempts libraries accounts events).filter fun attempted => attempted.pair = pair := by
  induction events generalizing accounts with
  | nil => rfl
  | cons event rest inductionHypothesis =>
      cases event with
      | accounts later =>
          rw [List.filter_cons_of_pos rfl]
          exact inductionHypothesis later
      | call call =>
          by_cases own : call.pair libraries = pair
          · have concerned : Event.concerns libraries pair (.call call) = true := decide_eq_true own
            have seen : (call.attempted libraries accounts).pair = pair := own
            rw [List.filter_cons_of_pos concerned, attempts, attempts,
              List.filter_cons_of_pos (by simpa using seen), inductionHypothesis]
          · have others : ¬ Event.concerns libraries pair (.call call) = true :=
              fun concerned => own (of_decide_eq_true concerned)
            have unseen : (call.attempted libraries accounts).pair ≠ pair := own
            rw [List.filter_cons_of_neg others, attempts,
              List.filter_cons_of_neg (by simpa using unseen), inductionHypothesis]

def Answered.seen (libraries : Libraries) (answered : Answered) :
    Pair × List Stage × Except Error Unit :=
  (answered.call.pair libraries, answered.stages, answered.outcome)

/-- **The guard decides.** A history ends as the guard does on what it sees. -/
theorem history_guard (documented : libraries.Documented) (events : List Event) {site : Site}
    {accounts : Accounts}
    (alike : ∀ call : Call,
      call.verified libraries site.accounts = call.verified libraries accounts) :
    ∃ log last, history libraries site events = some (log, last) ∧
      log.map (Answered.seen libraries) =
        (guard.run site.rows (attempts libraries accounts events)).1.map
          (fun answered => (answered.1.pair, answered.2)) ∧
      last.rows = (guard.run site.rows (attempts libraries accounts events)).2 := by
  induction events generalizing site accounts with
  | nil => exact ⟨[], site, rfl, rfl, rfl⟩
  | cons event rest inductionHypothesis =>
      cases event with
      | accounts later => exact @inductionHypothesis ⟨site.rows, later⟩ later fun _ => rfl
      | call call =>
          have seen :
              call.attempted libraries site.accounts = call.attempted libraries accounts := by
            rw [Call.attempted, Call.attempted, alike]
          have still : ∀ other : Call,
              other.verified libraries (call.leaves libraries site).accounts =
                other.verified libraries accounts :=
            fun other => (leaves_verified documented call site other).trans (alike other)
          obtain ⟨log, last, goesOn, answers, rows⟩ :=
            @inductionHypothesis (call.leaves libraries site) accounts still
          refine ⟨call.answered libraries site :: log, last, ?_, ?_, ?_⟩
          · simp only [history, login_eq, Option.bind_eq_bind, Option.bind_some, goesOn]
            rfl
          · rw [List.map_cons, answers, attempts, ← seen]
            rfl
          · rw [rows, attempts, ← seen]
            rfl

end Others

/-- **The throttle, exactly.** After every serial history of calls, whatever accounts other
functions have left in between: a call is locked out, succeeds or is recorded as the
failures of its pair since the last success say; the outcomes of a pair and its row are
those of its own calls alone; and histories that differ only in why verification failed
have the same outcomes and rows. -/
theorem throttle_exact (libraries : Libraries) (documented : libraries.Documented)
    (accounts : Accounts) (events : List Event) :
    ∃ log last, history libraries ⟨.empty, accounts⟩ events = some (log, last) ∧
      (∀ call : Call, call.Fits libraries log → ∃ answered next,
        last.login libraries call = some (answered, next) ∧
          Exact libraries log last call answered next) ∧
      (∀ pair, ∃ own after,
        history libraries ⟨.empty, accounts⟩ (events.filter (Event.concerns libraries pair)) =
            some (own, after) ∧
          own.map Answered.outcome =
            (log.filter fun answered => answered.call.pair libraries = pair).map
              Answered.outcome ∧
          after.rows.find pair = last.rows.find pair) ∧
      ∀ otherAccounts otherEvents,
        attempts libraries otherAccounts otherEvents = attempts libraries accounts events →
        ∃ otherLog after, history libraries ⟨.empty, otherAccounts⟩ otherEvents =
            some (otherLog, after) ∧
          otherLog.map Answered.outcome = log.map Answered.outcome ∧
          after.rows = last.rows := by
  have empty : ∀ pair, Stands ((Table.empty : Rows).find pair) [] := fun _ => .cleared rfl rfl
  have ran : ∀ (accounts : Accounts) events, ∃ log last,
      history libraries ⟨.empty, accounts⟩ events = some (log, last) ∧
        log.map (Answered.seen libraries) =
          (guard.run .empty (attempts libraries accounts events)).1.map
            (fun answered => (answered.1.pair, answered.2)) ∧
        last.rows = (guard.run .empty (attempts libraries accounts events)).2 :=
    fun accounts events =>
      @history_guard _ documented events ⟨.empty, accounts⟩ accounts fun _ => rfl
  obtain ⟨log, last, isHistory, answers, rows⟩ := ran accounts events
  refine ⟨log, last, isHistory, ?_, ?_, ?_⟩
  · intro call fitting
    obtain ⟨_, _, again, stands⟩ := @history_stands libraries ⟨.empty, accounts⟩ events _ empty
    cases isHistory.symm.trans again
    exact ⟨_, _, login_eq, exact_of_stands documented stands fitting⟩
  · intro pair
    obtain ⟨own, after, isOwn, ownAnswers, ownRows⟩ :=
      ran accounts (events.filter (Event.concerns libraries pair))
    rw [attempts_filter] at ownAnswers ownRows
    obtain ⟨filtered, same⟩ := guard_separate.run_filter (SameRow.refl pair .empty)
      (attempts libraries accounts events)
    have seen : (log.filter fun answered => answered.call.pair libraries = pair).map
        (Answered.seen libraries) = own.map (Answered.seen libraries) := by
      calc (log.filter fun answered => answered.call.pair libraries = pair).map
            (Answered.seen libraries)
          = (log.map (Answered.seen libraries)).filter fun seen => seen.1 = pair := by
            rw [List.filter_map]
            rfl
        _ = ((guard.run .empty (attempts libraries accounts events)).1.filter
              fun answered => answered.1.pair = pair).map
                fun answered => (answered.1.pair, answered.2) := by
            rw [answers, List.filter_map]
            rfl
        _ = own.map (Answered.seen libraries) := by rw [filtered, ownAnswers]
    refine ⟨own, after, isOwn, ?_, ?_⟩
    · have outcomes := congrArg (List.map fun seen => seen.2.2) seen.symm
      rwa [List.map_map, List.map_map] at outcomes
    · rw [ownRows, rows]
      exact same
  · intro otherAccounts otherEvents alike
    obtain ⟨otherLog, after, isOther, otherAnswers, otherRows⟩ := ran otherAccounts otherEvents
    rw [alike] at otherAnswers otherRows
    refine ⟨otherLog, after, isOther, ?_, otherRows.trans rows.symm⟩
    have same := congrArg (List.map fun seen => seen.2.2) (otherAnswers.trans answers.symm)
    rwa [List.map_map, List.map_map] at same

/-! ### A locked account -/

/-- Libraries that know ASCII letters, and hashes that show their password. -/
def plain : Libraries where
  lower text := text.map Char.toLower
  sqlLower text := text
  hashPassword _ password := '$' :: password
  hashToken token := token
  verify hash password := hash = '$' :: password
  needsRehash _ := true

theorem plain_documented : plain.Documented where
  lowered _ := rfl
  hashed salt password other := by simp [plain, eq_comm]
  one := by
    intro hash first second isFirst isSecond
    simp only [plain, decide_eq_true_eq] at isFirst isSecond
    exact (List.cons.inj (isFirst.symm.trans isSecond)).2
  encoded _ _ := List.cons_ne_nil _ _

def lockCo : Accounts where
  table := Table.empty.insert
    { id := ⟨1⟩, companyId := ⟨2⟩, email := "lock@co.de".toList, role := .owner, phoneE164 := none,
      isActive := true, passwordHash := some ('$' :: "correct".toList) }
  unique := by decide

def lockCall (password : String) (now : Instant) : Call :=
  ⟨" Lock@co.de".toList, password.toList, "5.5.5.5".toList, fun _ => now, []⟩

def fiveTries : List Event :=
  (List.range 5).map fun second => .call (lockCall "nope" (second * microsPerSecond))

/-- Five wrong tries lock the sixth one out, even with the correct password; when the lock is
over the password is looked at again. -/
theorem throttle_exact_sixth_try :
    ∃ log last, history plain ⟨.empty, lockCo⟩ fiveTries = some (log, last) ∧
      (∃ answered next seconds,
        last.login plain (lockCall "correct" (60 * microsPerSecond)) = some (answered, next) ∧
          answered.outcome = .error (.accountLocked seconds) ∧ next = last) ∧
      ∃ answered next,
        last.login plain (lockCall "correct" (904 * microsPerSecond)) = some (answered, next) ∧
          answered.outcome = .ok () := by
  obtain ⟨log, last, isHistory, exact, _⟩ :=
    throttle_exact plain plain_documented lockCo fiveTries
  have failures : failuresSince plain log ((lockCall "correct" 0).pair plain) =
      [0, 1000000, 2000000, 3000000, 4000000] := by
    have known : (history plain ⟨.empty, lockCo⟩ fiveTries).map (fun ended =>
        failuresSince plain ended.1 ((lockCall "correct" 0).pair plain)) =
          some [0, 1000000, 2000000, 3000000, 4000000] := by decide +kernel
    rw [isHistory] at known
    exact Option.some.inj known
  have verified : (lockCall "correct" 0).verified plain last.accounts = true := by
    have known : (history plain ⟨.empty, lockCo⟩ fiveTries).map (fun ended =>
        (lockCall "correct" 0).verified plain ended.2.accounts) = some true := by decide +kernel
    rw [isHistory] at known
    exact Option.some.inj known
  have fitting : ∀ now, (lockCall "correct" now).Fits plain log := by
    intro now
    have email : ((lockCall "correct" 0).attempt plain).email.length ≤ 254 := by decide
    have ip : (lockCall "correct" 0).ip.length ≤ 45 := by decide
    refine ⟨email, ip, ?_⟩
    rw [show (lockCall "correct" now).pair plain = (lockCall "correct" 0).pair plain from rfl,
      failures]
    decide
  refine ⟨log, last, isHistory, ?_, ?_⟩
  · obtain ⟨answered, next, ran, sixth⟩ := exact _ (fitting (60 * microsPerSecond))
    have locked : Locked (failuresSince plain log ((lockCall "correct" 0).pair plain))
        (60 * microsPerSecond) := by
      rw [failures]
      exact ⟨by decide, 4000000, rfl, by decide⟩
    obtain ⟨seconds, isLocked⟩ := sixth.locked.mpr locked
    exact ⟨answered, next, seconds, ran, isLocked, (sixth.refused locked).2⟩
  · obtain ⟨answered, next, ran, later⟩ := exact _ (fitting (904 * microsPerSecond))
    have free : ¬ Locked (failuresSince plain log ((lockCall "correct" 0).pair plain))
        (904 * microsPerSecond) := by
      rw [failures]
      rintro ⟨_, instant, isLast, before⟩
      cases isLast
      exact absurd before (by decide)
    exact ⟨answered, next, ran, (later.succeeds free).mpr
      ((verified_iff plain_documented).mp verified)⟩

end Fristenwaechter.Throttle
