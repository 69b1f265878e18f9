import Fristenwaechter.Lockout.Safety
import Fristenwaechter.Sweeps.Reminders

/-!
Owns what `runE6` leaves behind when it returns: a locked driver whose only OPEN case is
the returned one, and no change at all if that case was OPEN before, however often the
call is repeated.
-/

namespace Fristenwaechter

open Library (Ended Over Policy Serial Served Table)

variable {sha256 : Str → Str} {validateKennzeichen : Str → Option Str}
variable {world : World} {driverId : Uuid}

/-- The driver is locked, and the case is its only OPEN one. -/
structure LockedOut (db : Db) (driverId caseId : Uuid) : Prop where
  driver : ∃ driver ∈ db.drivers, driver.id = driverId ∧ driver.isAuthorizedToDrive = false
  case : ∃ case ∈ db.cases, case.id = caseId ∧ case.driverId = driverId ∧ case.status = .open
  only : ∀ case ∈ db.cases, case.driverId = driverId → case.status = .open → case.id = caseId

theorem lockedOut_of_open {case : EscalationCase} (consistent : Consistent world)
    (locked : LockedWhileOpen world) (member : case ∈ world.db.cases)
    (own : case.driverId = driverId) (isOpen : case.status = .open) :
    LockedOut world.db driverId case.id := by
  obtain ⟨driver, driverIn, isDriver, _⟩ := consistent.owned case member
  refine ⟨⟨driver, driverIn, isDriver.trans own,
      locked case member isOpen driver driverIn isDriver⟩,
    ⟨case, member, rfl, own, isOpen⟩, fun other otherIn otherOwn otherOpen => ?_⟩
  rw [consistent.unique other otherIn case member (otherOwn.trans own.symm) otherOpen isOpen]

def Request.CallsE6 (driverId : Uuid) : Request → Prop
  | .runE6 _ id _ _ _ => id = driverId
  | _ => False

theorem Request.CallsE6.request {request : Request} (isCall : request.CallsE6 driverId) :
    ∃ tenant companyId triggerCheckId recipients,
      request = .runE6 tenant driverId companyId triggerCheckId recipients := by
  cases request with
  | runE6 tenant id companyId triggerCheckId recipients =>
      cases isCall
      exact ⟨_, _, _, _, rfl⟩
  | _ => cases isCall

/-- The call has returned, and its transaction was committed. -/
def Done.Returns (done : Done) (result : E6Result) : Prop :=
  done.outcome = some (.ok (.e6 result))

/-- What is known of drivers and cases between the transactions. -/
def Guarded (world : World) : Prop :=
  Consistent world ∧ LockedWhileOpen world

section Call

variable {done : Done} {tenant : Option Uuid} {companyId triggerCheckId : Uuid}
variable {recipients : List Recipient}

/-- A replay has found its case in the database it was called on. -/
theorem RunsE6.replays {session after : Session} {result : E6Result}
    (unsaved : session.connection.savepoint = none) (fresh : session.writes = [])
    (reads : ∀ entry ∈ after.trace, entry.world.db = world.db)
    (runs : RunsE6 driverId companyId triggerCheckId recipients session (.ok result) after)
    (replayed : result.alreadyOpen = true) :
    ∃ existing ∈ world.db.cases, existing.driverId = driverId ∧ existing.status = .open ∧
      result = ⟨existing.id, none, [], true⟩ ∧ after.writes = [] := by
  cases runs with
  | staged save release middle result saved handled asked =>
      cases handled with
      | done => cases replayed
  | replayed save back seen middle constraint existing saved handled asked found =>
      have same : (middle.rolledBack back).connection = session.connection :=
        handled.rolledBack unsaved
      have unwritten : seen.db.cases = seen.world.db.cases := by
        rw [Sent.db, asked.connection, same, Connection.view_eq]
        change (seen.world.db.after session.writes).cases = _
        rw [fresh]
        rfl
      obtain ⟨member, own, isOpen⟩ := openCase_spec unwritten found
      rw [reads seen (by simp)] at member
      refine ⟨existing, member, own, isOpen, rfl, ?_⟩
      rw [Session.saw_writes, Session.writes, same]
      exact fresh

theorem runE6_call (inv : Guarded world)
    (after : Guarded ((system sha256 validateKennzeichen).leave done))
    (served : Served (system sha256 validateKennzeichen) readCommitted world done)
    (isOver : Over (system sha256 validateKennzeichen) .unrestricted readCommitted Guarded Evolves
      ((system sha256 validateKennzeichen).leave done) done)
    (isCall : Request.CallsE6 driverId done.request) :
    (∀ existing ∈ world.db.cases, existing.driverId = driverId → existing.status = .open →
        ((system sha256 validateKennzeichen).leave done).db = world.db ∧
          ∀ result, done.Returns result → result = ⟨existing.id, none, [], true⟩) ∧
      (∀ result, done.Returns result →
        LockedOut ((system sha256 validateKennzeichen).leave done).db driverId result.caseId) ∧
      ((∀ result, done.Returns result → result.alreadyOpen = true) →
        ((system sha256 validateKennzeichen).leave done).db = world.db) := by
  obtain ⟨sameDb, sees⟩ := served_sees served
  have reads : ∀ entry ∈ done.transaction.trace, entry.world.db = world.db :=
    fun entry member => (sees entry member).1
  by_cases committed : Done.isCommitted done = true
  swap
  · rw [leave_uncommitted (by simpa using committed)]
    have silent : ∀ result, ¬ done.Returns result := by
      intro result returns
      rw [Done.Returns] at returns
      simp [Done.isCommitted, returns] at committed
    exact ⟨fun existing _ _ _ => ⟨sameDb, fun result returns => absurd returns (silent result)⟩,
      fun result returns => absurd returns (silent result), fun _ => sameDb⟩
  obtain ⟨outcome, well⟩ := committed_well committed
  obtain ⟨start, commits⟩ := isOver.commits well
  have backed := Backed.of_commits (fun _ inv => inv.1) commits
  have ended := served.ends _ well
  obtain ⟨tenant, companyId, triggerCheckId, recipients, isRequest⟩ := isCall.request
  rw [isRequest] at ended
  rcases transaction_ends ended with ⟨_, middle, same, body, executed⟩ | ⟨_, same, _⟩
  swap
  · cases same
  cases same
  rcases ends_return.mp body with ⟨e6, same, ran⟩ | ⟨_, same, _⟩
  swap
  · cases same
  cases same
  have runs := runE6_ends rfl ran
  obtain ⟨_, deed, clean⟩ := runs.deed (Session.opened_remembers _ _) rfl
  cases executed.of_clean (clean rfl)
  have isResult : ∀ result, done.Returns result → result = e6 := by
    intro result returns
    rw [Done.Returns, well] at returns
    cases returns
    rfl
  rw [leave_committed well] at after ⊢
  change Guarded { done.world with db := done.world.db.after (Session.writes done.transaction) }
    at after
  change (∀ existing ∈ world.db.cases, _ → _ →
    done.world.db.after (Session.writes done.transaction) = world.db ∧ _) ∧
      (∀ result, _ → LockedOut (done.world.db.after (Session.writes done.transaction)) _ _) ∧
        (_ → done.world.db.after (Session.writes done.transaction) = world.db)
  rcases deed with ⟨_, _, replayed⟩ | ⟨driver, row, load, lock, now, alert, case, ids, staged,
    locks, own, writes, isStaged⟩
  · obtain ⟨existing, member, own, isOpen, isReplay, nothing⟩ := runs.replays rfl rfl reads replayed
    rw [nothing, Db.after_nil, sameDb]
    refine ⟨fun other otherIn otherOwn otherOpen => ⟨rfl, fun result returns => ?_⟩,
      fun result returns => ?_, fun _ => rfl⟩
    · rw [isResult result returns, isReplay, inv.1.unique other otherIn existing member
        (otherOwn.trans own.symm) otherOpen isOpen]
    · rw [isResult result returns, isReplay]
      exact lockedOut_of_open inv.1 inv.2 member own isOpen
  · have whole : Session.writes done.transaction = [] ++ staged := writes
    obtain ⟨_, _, cases, free⟩ := locks.tables backed (by simp) whole
    have caseIn : case ∈ (done.world.db.after (Session.writes done.transaction)).cases := by
      rw [cases]
      exact Table.mem_insert.mpr (.inr ⟨rfl, free⟩)
    have caseOwn : case.driverId = driverId := locks.own.trans own
    refine ⟨fun existing member existingOwn isOpen => ?_, fun result returns => ?_,
      fun replays => ?_⟩
    · -- two OPEN cases of one driver
      exfalso
      rw [← sameDb] at member
      have existingIn : existing ∈ (done.world.db.after
          (Session.writes done.transaction)).cases := by
        rw [cases]
        exact Table.mem_insert.mpr (.inl member)
      have same := after.1.unique existing existingIn case caseIn (existingOwn.trans caseOwn.symm)
        isOpen locks.isOpen
      exact Table.find_eq_none.mp free existing member (by rw [same]; rfl)
    · rw [isResult result returns, isStaged]
      exact lockedOut_of_open after.1 after.2 caseIn caseOwn locks.isOpen
    · have replayed := replays e6 well
      rw [isStaged] at replayed
      cases replayed

end Call

/-! ### Repeated calls -/

/-- What the calls for one driver have returned and left behind since a world. -/
structure Replayed (driverId : Uuid) (world now : World) (calls : List Done) : Prop where
  locked : ∀ done ∈ calls, ∀ result, done.Returns result →
    LockedOut now.db driverId result.caseId
  existing : ∀ existing ∈ world.db.cases, existing.driverId = driverId →
    existing.status = .open →
      now.db = world.db ∧ ∀ done ∈ calls, ∀ result, done.Returns result →
        result = ⟨existing.id, none, [], true⟩
  unchanged : (∀ done ∈ calls, ∀ result, done.Returns result → result.alreadyOpen = true) →
    now.db = world.db

theorem Replayed.call {before : World} {done : Done} {calls : List Done}
    (replayed : Replayed driverId world before calls) (inv : Guarded before)
    (after : Guarded ((system sha256 validateKennzeichen).leave done))
    (served : Served (system sha256 validateKennzeichen) readCommitted before done)
    (isOver : Over (system sha256 validateKennzeichen) .unrestricted readCommitted Guarded Evolves
      ((system sha256 validateKennzeichen).leave done) done)
    (isCall : Request.CallsE6 driverId done.request) :
    Replayed driverId world ((system sha256 validateKennzeichen).leave done) (calls ++ [done]) := by
  obtain ⟨existing, returned, unchanged⟩ := runE6_call inv after served isOver isCall
  refine ⟨fun other member result returns => ?_, fun case member own isOpen => ?_,
    fun replays => ?_⟩
  · rcases List.mem_append.mp member with old | new
    · have lockedOut := replayed.locked other old result returns
      obtain ⟨case, caseIn, _, own, isOpen⟩ := lockedOut.case
      rw [(existing case caseIn own isOpen).1]
      exact lockedOut
    · rw [List.mem_singleton.mp new] at returns
      exact returned result returns
  · obtain ⟨same, results⟩ := replayed.existing case member own isOpen
    rw [← same] at member
    obtain ⟨still, isReplay⟩ := existing case member own isOpen
    refine ⟨still.trans same, fun other otherIn result returns => ?_⟩
    rcases List.mem_append.mp otherIn with old | new
    · exact results other old result returns
    · rw [List.mem_singleton.mp new] at returns
      exact isReplay result returns
  · have same := replayed.unchanged fun other member =>
      replays other (List.mem_append_left _ member)
    exact (unchanged (replays done (by simp))).trans same

/-- The same, as far as all of them are such calls. -/
def ReplayedIfCalls (driverId : Uuid) (world now : World) (calls : List Done) : Prop :=
  (∀ done ∈ calls, Request.CallsE6 driverId done.request) → Replayed driverId world now calls

theorem lockedDiscipline_guarded (sha256 : Str → Str) (validateKennzeichen : Str → Option Str) :
    Library.Discipline (system sha256 validateKennzeichen) .unrestricted readCommitted Guarded
      Evolves :=
  lockedDiscipline sha256 validateKennzeichen .unrestricted

/-- **Repeated calls.** After any serial run, and any number of calls of `runE6` for a driver
in a row, each call that returned has left the driver locked with the returned case as its
only OPEN one; and if a case was OPEN before, or every call says so, no table has changed. -/
theorem run_e6_replays {start world next : World} {history calls : List Done}
    (consistent : Consistent start) (locked : LockedWhileOpen start)
    (reached : Serial (system sha256 validateKennzeichen) start world history)
    (called : Serial (system sha256 validateKennzeichen) world next calls)
    (allCalls : ∀ done ∈ calls, Request.CallsE6 driverId done.request) :
    Replayed driverId world next calls := by
  have laws := system_laws sha256 validateKennzeichen
  have discipline := lockedDiscipline_guarded sha256 validateKennzeichen
  have guarded : Guarded world :=
    (@Serial.disciplined _ _ _ _ _ _ _ _ _ _ _ _ _ _ laws discipline _ _ _ (fun _ _ => True)
      ⟨consistent, locked⟩ trivial (fun _ _ => trivial) (fun _ _ _ _ _ => trivial) reached).1
  have known : ReplayedIfCalls driverId world next calls := by
    refine (Serial.disciplined laws discipline guarded ?_ ?_ ?_ called).2
    · exact fun _ => ⟨by simp, fun existing _ _ _ => ⟨rfl, by simp⟩, fun _ => rfl⟩
    · intro _ _ _ _ replayed isCalls
      have same := replayed isCalls
      exact ⟨same.locked, same.existing, same.unchanged⟩
    · intro before done earlier inv after served isOver replayed isCalls
      exact (replayed fun other member => isCalls other (List.mem_append_left _ member)).call inv
        after served isOver (isCalls done (by simp))
  exact known allCalls

def fleetCall : Request :=
  .runE6 (some (fleetId 100)) (fleetId 2) (fleetId 100) (fleetId 900)
    [⟨some "chef@spedition.de".toList, some "+4930123456".toList⟩]

def Done.e6 (done : Done) : Option E6Result :=
  match done.outcome with
  | some (.ok (Outcome.e6 result)) => some result
  | _ => none

/-- Two calls, the second of which replays the first. -/
theorem run_e6_replays_fleet :
    ∃ next history, Serial (system id some) fleetWorld next history ∧
      (history.filterMap Done.e6).map E6Result.alreadyOpen = [false, true] ∧
        Replayed (fleetId 2) fleetWorld next history := by
  have served : ((system id some).serve fleetWorld fleetCall (fleetEnvs 1 30)).any (fun once =>
      ((system id some).serve once.1 fleetCall (fleetEnvs 60 20)).any fun twice =>
        ([once.2, twice.2].filterMap Done.e6).map E6Result.alreadyOpen = [false, true]) = true := by
    decide +kernel
  obtain ⟨⟨middle, once⟩, ran, rest⟩ := (Option.any_eq_true _ _).mp served
  obtain ⟨⟨next, twice⟩, again, returned⟩ := (Option.any_eq_true _ _).mp rest
  have serial : Serial (system id some) fleetWorld next [once, twice] :=
    (Serial.nothing.serve ran).serve again
  refine ⟨next, [once, twice], serial, of_decide_eq_true returned, run_e6_replays
    fleetWorld_consistent (fun case member => absurd member (fleetWorld_cases case)) .nothing serial
    ?_⟩
  intro done member
  have laws := system_laws id some
  simp only [List.mem_cons, List.not_mem_nil, or_false] at member
  rcases member with rfl | rfl
  · rw [(Library.Engine.serve_ends laws ran).1]
    rfl
  · rw [(Library.Engine.serve_ends laws again).1]
    rfl

end Fristenwaechter
