import Fristenwaechter.Calendar.Windows
import Fristenwaechter.Sweeps.Escalations

/-!
Owns when a sweep flips a case that E6 has opened: once the seven civil days after the
opening are over, and in the last second of the seventh.
-/

namespace Fristenwaechter

open Library (Config Discipline Ended Journal Over Policy Reachable Sound Table)

variable {sha256 : Str → Str} {validateKennzeichen : Str → Option Str}
variable {db : Db} {now : Instant} {today : Date} {cases : List EscalationCase}

/-! ### Rows over time -/

theorem persistDiscipline (sha256 : Str → Str) (validateKennzeichen : Str → Option Str)
    (policy : Policy World Memory Connection Statement Env Request) :
    Discipline (system sha256 validateKennzeichen) policy readCommitted (fun _ => True)
      fun before after => Persists before.db after.db where
  refl world := .refl world.db
  trans := Persists.trans
  advance _ _ := ⟨trivial, .refl _⟩
  commit commits := ⟨trivial, persists_after commits.chain.ready⟩

theorem insertedCase_after {writes : List Write} {case : EscalationCase}
    (replays : Journal.Replays writes db) (inserted : .insertCase case ∈ writes) :
    ∃ row ∈ (db.after writes).cases, case.Later row := by
  induction writes generalizing db with
  | nil => cases inserted
  | cons write rest inductionHypothesis =>
      rw [Db.after_cons]
      rcases List.mem_cons.mp inserted with rfl | later
      · have free := insertCase_valid replays.1
        have member : case ∈ ((Write.insertCase case).apply db).cases :=
          Table.mem_insert.mpr (.inr ⟨rfl, free.1⟩)
        exact (persists_after replays.2).cases case member
      · exact inductionHypothesis replays.2 later

/-- Every case that a commit of the history has inserted is in the world. -/
def CasesKept (world : World) (history : List Done) : Prop :=
  ∀ done ∈ history, Done.isCommitted done = true →
    ∀ case, .insertCase case ∈ Session.writes done.transaction →
      ∃ row ∈ world.db.cases, case.Later row

/-! ### The opening -/

/-- E6 has opened the case at the instant it read from the clock. -/
def Done.OpensAt (done : Done) (case : EscalationCase) (openedAt : Instant) : Prop :=
  ∃ companyId triggerCheckId recipients driver row load lock clock alert createdAt ids staged,
    LocksOut companyId triggerCheckId recipients done.transaction.trace driver row load lock clock
        alert case createdAt ids staged ∧ clock.env.now = openedAt

/-- Only E6 opens cases. -/
theorem opensAt_of_inserted {world : World} {done : Done} {result : Outcome}
    (ended : (system sha256 validateKennzeichen).Ends
      ((system sha256 validateKennzeichen).program done.request)
      ((system sha256 validateKennzeichen).opening world done.request) (.ok result)
      done.transaction)
    {case : EscalationCase} (inserted : .insertCase case ∈ Session.writes done.transaction) :
    ∃ openedAt, done.OpensAt case openedAt := by
  cases deed ended with
  | calm all => exact (all _ inserted).elim
  | locksOut companyId triggerCheckId recipients driver row load lock clock alert opened createdAt
      ids first staged locks other whole =>
      rw [whole] at inserted
      rcases List.mem_append.mp inserted with early | inStaged
      · exact absurd rfl ((other _ early).not_insertCase case)
      rw [locks.staged] at inStaged
      rcases List.mem_append.mp inStaged with locking | telling
      · rcases List.mem_append.mp locking with update | isCase
        · cases Driver.mem_update update
        · cases List.mem_singleton.mp isCase
          exact ⟨_, _, _, _, driver, row, load, lock, clock, alert, createdAt, ids, staged, locks,
            rfl⟩
      · exact absurd rfl ((tellWrites_elsewhere _ telling).not_insertCase case)
  | lifts resolvedById driver load seen first resolving lifts other whole =>
      exact absurd rfl (lifts.opensNothing other whole _ inserted case)
  | sweeps instant today claim claims all =>
      exact absurd rfl (sweep_opensNothing all _ inserted case)

/-! ### The sweep -/

/-- A committed sweep at an instant: what it has claimed, and everything it has written. -/
structure Done.SweepsAt (done : Done) (now : Instant) (today : Date) (claim : Sent) : Prop where
  timed : ∃ clock : Sent, done.transaction.trace.head? = some clock ∧ clock.statement = .now ∧
    clock.env.now = now
  asked : claim.statement = .openCasesForUpdate
  claims : Claims done.transaction claim
  all : ∀ write ∈ Session.writes done.transaction, SweepWrite now today claim.claimableCases write
  flips : ∀ case ∈ claim.claimableCases, case.deadlineAt < now →
    .updateCase case.breach ∈ Session.writes done.transaction

theorem sweepsAt_of_ends {world : World} {done : Done} {result : Outcome}
    (isSweep : done.request = .sweepEscalations)
    (ended : (system sha256 validateKennzeichen).Ends
      ((system sha256 validateKennzeichen).program done.request)
      ((system sha256 validateKennzeichen).opening world done.request) (.ok result)
      done.transaction) :
    ∃ now today claim, done.SweepsAt now today claim := by
  rw [isSweep] at ended
  have ends : postgres.Ends (transaction (Request.sweepEscalations.body sha256 validateKennzeichen))
      (Session.opened none world.clock) (.ok result) done.transaction := ended
  rcases transaction_ends ends with ⟨_, middle, _, body, executed⟩ | ⟨_, same, _⟩
  swap
  · cases same
  rcases ends_return.mp body with ⟨⟨⟩, _, ran⟩ | ⟨_, same, _⟩
  swap
  · cases same
  obtain ⟨clock, dated, begun, claim, today, base, sweeps, loop⟩ := sweepEscalations_ends rfl ran
  obtain ⟨claims, all⟩ := sweeps.claims (sweeps.within rfl loop) executed
  obtain ⟨adds, flips⟩ := sweepCases_add (fun _ member => member) loop
  refine ⟨clock.env.now, today, claim, ⟨clock, ?_, sweeps.timed.statement, rfl⟩,
    sweeps.asked.statement, claims, all, fun case claimed late =>
      (made_committed executed _).mpr (flips case claimed late)⟩
  have whole : [clock, dated, begun, claim] <+: done.transaction.trace := by
    refine List.IsPrefix.trans ?_ (adds.trace.trans executed.grown.trace)
    rw [sweeps.isBase]
    exact List.prefix_rfl
  obtain ⟨rest, isTrace⟩ := whole
  rw [← isTrace]
  rfl

/-- A case that is in time is at most nagged. -/
theorem nagged_after {writes : List Write} {case : EscalationCase}
    (unique : ∀ other ∈ cases, other.id = case.id → other = case)
    (inTime : ¬ case.deadlineAt < now)
    (all : ∀ write ∈ writes, SweepWrite now today cases write)
    (stored : case ∈ db.cases ∨ { case with lastNagOn := some today } ∈ db.cases) :
    case ∈ (db.after writes).cases ∨
      { case with lastNagOn := some today } ∈ (db.after writes).cases := by
  induction writes generalizing db with
  | nil => exact stored
  | cons write rest inductionHypothesis =>
      rw [Db.after_cons]
      refine inductionHypothesis (fun other member => all other (List.mem_cons_of_mem _ member)) ?_
      cases all write List.mem_cons_self with
      | breach other claimed late =>
          have apart : case.id ≠ other.id := fun hit =>
            inTime (unique other claimed hit.symm ▸ late)
          refine stored.imp (fun member => ?_) fun member => ?_
          · exact (Table.mem_update (by simp)).mpr ⟨_, member, (if_neg apart).symm⟩
          · exact (Table.mem_update (by simp)).mpr ⟨_, member, (if_neg apart).symm⟩
      | nag other claimed _ =>
          by_cases hit : case.id = other.id
          · have isCase := unique other claimed hit.symm
            subst isCase
            have nags : ∀ row ∈ db.cases,
                row = other ∨ row = { other with lastNagOn := some today } →
                { other with lastNagOn := some today } ∈
                  ((Write.updateCase (other.nagged today)).apply db).cases := by
              intro row member isRow
              refine (Table.mem_update (by simp)).mpr ⟨row, member, ?_⟩
              have own : row.id = other.id := by
                rcases isRow with rfl | rfl <;> rfl
              rw [if_pos (show Library.Keyed.key row = (other.nagged today).loaded.id from own)]
              rcases isRow with rfl | rfl <;>
                simp [EscalationCase.changed, EscalationCase.nagged]
            rcases stored with member | member
            · exact .inr (nags _ member (.inl rfl))
            · exact .inr (nags _ member (.inr rfl))
          · refine stored.imp (fun member => ?_) fun member => ?_
            · exact (Table.mem_update (by simp)).mpr ⟨_, member, (if_neg hit).symm⟩
            · exact (Table.mem_update (by simp)).mpr ⟨_, member, (if_neg hit).symm⟩
      | breachMessage => exact stored
      | nagMessage => exact stored

def Done.Flips (done : Done) (caseId : Uuid) : Prop :=
  ∃ later ∈ done.result.cases, later.id = caseId ∧ later.status = .breached

/-- The sweep has at most nagged the case. -/
def Done.AtMostNags (done : Done) (case : EscalationCase) (today : Date) : Prop :=
  case ∈ done.result.cases ∨ { case with lastNagOn := some today } ∈ done.result.cases

theorem sweepsAt_flips {done : Done} {claim : Sent} (sweeps : done.SweepsAt now today claim)
    (kept : ∀ lock ∈ Journal.held Db done.transaction.connection.journal,
      Kept lock.1 lock.2.db done.world.db)
    {row : EscalationCase} (claimed : row ∈ claim.claimableCases) :
    (done.Flips row.id ↔ row.deadlineAt < now) ∧
      (¬ row.deadlineAt < now → done.AtMostNags row today) := by
  have isOpen := claimableCases_open claim
  have inClaim : ∀ other ∈ claim.claimableCases, other ∈ claim.world.db.cases := by
    intro other member
    rw [← sweeps.claims.unwritten]
    exact (List.mem_filter.mp member).1
  have unique : ∀ other ∈ claim.claimableCases, other.id = row.id → other = row :=
    fun other member same => Table.eq_of_key (inClaim other member) (inClaim row claimed) same
  -- the lock of the claim has kept the row up to the commit
  have found : done.world.db.cases.find row.id = claim.world.db.cases.find row.id :=
    kept _ (sweeps.claims.held row claimed)
  rw [show claim.world.db.cases.find row.id = some row from
    Table.find_of_mem (inClaim row claimed)] at found
  have stored := Table.mem_of_find found
  have nags : ¬ row.deadlineAt < now → done.AtMostNags row today := fun inTime =>
    nagged_after unique inTime sweeps.all (.inl stored)
  refine ⟨⟨?_, fun late => ?_⟩, nags⟩
  · rintro ⟨later, laterIn, own, isBreached⟩
    by_contra inTime
    rcases nags inTime with still | nagged
    · have same : later = row := Table.eq_of_key laterIn still own
      rw [same, isOpen row claimed] at isBreached
      cases isBreached
    · have same : later = { row with lastNagOn := some today } :=
        Table.eq_of_key laterIn nagged own
      rw [same] at isBreached
      cases (isOpen row claimed).symm.trans isBreached
  · exact breached_after isOpen unique late sweeps.all
      ⟨row, stored, rfl, .inr (sweeps.flips row claimed late)⟩

/-! ### Whole runs -/

section Runs

variable (sha256 : Str → Str) (validateKennzeichen : Str → Option Str)

theorem casesKept_of_reachable {world : World}
    {config : Config World Memory Connection Statement Answer Env Error Request Outcome}
    (reached : Reachable (system sha256 validateKennzeichen) .unrestricted ⟨world, [], []⟩ config) :
    CasesKept config.world config.ended := by
  refine Sound.recorded (system_laws sha256 validateKennzeichen)
    (persistDiscipline sha256 validateKennzeichen .unrestricted) ?_ ?_ (Sound.quiet trivial) ?_
    reached
  · exact fun _ _ kept => kept
  · intro history done isOver kept
    obtain ⟨_, _, start, _, _, chain, _, _⟩ := isOver
    by_cases committed : Done.isCommitted done = true
    · obtain ⟨result, well⟩ := committed_well committed
      rw [leave_committed well]
      intro other member isCommitted case inserted
      rcases List.mem_append.mp member with old | new
      · obtain ⟨row, rowIn, later⟩ := kept other old isCommitted case inserted
        obtain ⟨next, nextIn, follows⟩ := (persists_after chain.ready).cases row rowIn
        exact ⟨next, nextIn, later.trans follows⟩
      · rw [List.mem_singleton.mp new] at inserted
        exact insertedCase_after chain.ready inserted
    · rw [leave_uncommitted (by simpa using committed)]
      intro other member isCommitted case inserted
      rcases List.mem_append.mp member with old | new
      · exact kept other old isCommitted case inserted
      · rw [List.mem_singleton.mp new] at isCommitted
        exact absurd isCommitted committed
  · exact fun _ member => absurd member List.not_mem_nil

/-- **Seven civil days.** In every interleaving a sweep flips a case that it has claimed
once the Berlin day of the sweep lies more than seven days after the one on which E6 has
opened it, and never earlier, exactly unless it runs in the last second of the seventh day. -/
theorem seven_civil_days {world : World}
    {config : Config World Memory Connection Statement Answer Env Error Request Outcome}
    (reached : Reachable (system sha256 validateKennzeichen) .unrestricted ⟨world, [], []⟩ config)
    {opener sweep : Done} (openerIn : opener ∈ config.ended) (opened : opener.isCommitted = true)
    {case : EscalationCase} (inserted : .insertCase case ∈ Session.writes opener.transaction)
    (sweepIn : sweep ∈ config.ended) (isSweep : sweep.request = .sweepEscalations)
    (swept : sweep.isCommitted = true) :
    ∃ openedAt now today claim, opener.OpensAt case openedAt ∧ sweep.SweepsAt now today claim ∧
      ∀ row ∈ claim.claimableCases, row.id = case.id →
        ((sweep.Flips row.id ↔ civilDay openedAt + escalationDays < civilDay now) ↔
          (civilDay now = civilDay openedAt + escalationDays →
            wallOf now % microsPerDay ≤ 86399 * microsPerSecond)) ∧
          (¬ sweep.Flips row.id → sweep.AtMostNags row today) := by
  have sound := (Sound.reachable (system_laws sha256 validateKennzeichen)
    (persistDiscipline sha256 validateKennzeichen .unrestricted) (Sound.quiet trivial) reached).1
  obtain ⟨openedResult, openedWell⟩ := committed_well opened
  obtain ⟨sweptResult, sweptWell⟩ := committed_well swept
  obtain ⟨_, _, _, _, _, _, openerEnds, _⟩ := sound.concluded opener openerIn
  obtain ⟨evolves, _, _, _, _, chain, sweepEnds, _⟩ := sound.concluded sweep sweepIn
  obtain ⟨openedAt, opensAt⟩ := opensAt_of_inserted (openerEnds _ openedWell) inserted
  obtain ⟨now, today, claim, sweeps⟩ := sweepsAt_of_ends isSweep (sweepEnds _ sweptWell)
  refine ⟨openedAt, now, today, claim, opensAt, sweeps, fun row claimed own => ?_⟩
  obtain ⟨flips, nags⟩ := sweepsAt_flips sweeps chain.kept claimed
  -- both rows are the case, at different times
  have sameDeadline : row.deadlineAt = case.deadlineAt := by
    obtain ⟨last, lastIn, follows⟩ :=
      casesKept_of_reachable sha256 validateKennzeichen reached opener openerIn opened case inserted
    have stored : row ∈ claim.world.db.cases := by
      rw [← sweeps.claims.unwritten]
      exact (List.mem_filter.mp claimed).1
    obtain ⟨_, _, _, _, upTo⟩ := chain.seen claim sweeps.claims.sent
    obtain ⟨later, laterIn, continues⟩ := (upTo.trans evolves).cases row stored
    have same : later = last :=
      Table.eq_of_key laterIn lastIn (continues.id.trans (own.trans follows.id.symm))
    rw [← continues.deadlineAt, same, follows.deadlineAt]
  obtain ⟨_, _, _, _, _, _, _, clock, _, _, _, _, locks, rfl⟩ := opensAt
  have passed := @escalationDeadline_passed _ _ _ now (by decide) locks.dated
  rw [flips, sameDeadline]
  refine ⟨?_, fun still => nags (by rwa [sameDeadline])⟩
  rw [passed]
  omega

end Runs

/-! ### A case of the fleet -/

def envAfter (first : Instant) (number : Nat) : Env :=
  { fleetEnv number with now := first + number }

def failedThenSwept (instant : Instant) : List (Library.Choice Env Request) :=
  .start (fleetCheck "FAILED".toList) :: fleetRun 0 1 46 ++
    [.finish 0, .start .sweepEscalations] ++
      (List.range 29).map (fun step => .run 0 (envAfter instant step)) ++ [.finish 0]

def opensThenSweeps (history : List Done) : Bool :=
  match history with
  | [opener, sweep] =>
      Done.isCommitted opener &&
        (Session.writes opener.transaction).any (fun write => write matches .insertCase _) &&
        Done.isCommitted sweep && (sweep.request matches .sweepEscalations)
  | _ => false

theorem opensThenSweeps_spec {history : List Done} (both : opensThenSweeps history = true) :
    ∃ opener sweep case, history = [opener, sweep] ∧ Done.isCommitted opener = true ∧
      .insertCase case ∈ Session.writes opener.transaction ∧
        Ended.request sweep = .sweepEscalations ∧ Done.isCommitted sweep = true := by
  unfold opensThenSweeps at both
  split at both
  · rename_i opener sweep
    simp only [Bool.and_eq_true, List.any_eq_true] at both
    obtain ⟨⟨⟨opened, write, member, isInsert⟩, swept⟩, isSweep⟩ := both
    split at isInsert
    · rename_i case
      split at isSweep
      · rename_i request
        exact ⟨opener, sweep, case, rfl, opened, member, request, swept⟩
      · cases isSweep
    · cases isInsert
  · cases both

/-- A sweep on the ninth day of the year flips the case. -/
theorem seven_civil_days_fleet :
    ∃ config opener sweep, ∃ case : EscalationCase, (system id some).schedule ⟨fleetWorld, [], []⟩
        (failedThenSwept (687700 * microsPerSecond)) = some config ∧
      config.ended = [opener, sweep] ∧
      ∃ openedAt now today claim, Done.OpensAt opener case openedAt ∧
        Done.SweepsAt sweep now today claim ∧
        ∀ row ∈ claim.claimableCases, row.id = case.id →
          ((Done.Flips sweep row.id ↔ civilDay openedAt + escalationDays < civilDay now) ↔
            (civilDay now = civilDay openedAt + escalationDays →
              wallOf now % microsPerDay ≤ 86399 * microsPerSecond)) ∧
            (¬ Done.Flips sweep row.id → Done.AtMostNags sweep row today) := by
  have ran : ((system id some).schedule ⟨fleetWorld, [], []⟩
      (failedThenSwept (687700 * microsPerSecond))).any (fun config =>
        opensThenSweeps config.ended) = true := by
    decide +kernel
  obtain ⟨config, ran, both⟩ := (Option.any_eq_true _ _).mp ran
  obtain ⟨opener, sweep, case, isHistory, opened, inserted, isSweep, swept⟩ :=
    opensThenSweeps_spec both
  exact ⟨config, opener, sweep, case, ran, isHistory,
    seven_civil_days id some (.of_schedule ran) (by simp [isHistory]) opened inserted
      (by simp [isHistory]) isSweep swept⟩

def flipsOnEighth (opener sweep : Done) : Bool :=
  (opener.transaction.trace.all fun entry => civilDay entry.env.now = 0) &&
    (sweep.transaction.trace.head?.all fun entry => civilDay entry.env.now = 7) &&
      (Session.writes opener.transaction).all fun write =>
        match write with
        | .insertCase case => (Done.result sweep).cases.rows.any fun later =>
            later.id = case.id ∧ later.status = .breached
        | _ => true

/-- Half a second before midnight of the seventh day the case is already BREACHED. -/
theorem breached_on_seventh_day :
    ∃ config, Reachable (system id some) .unrestricted ⟨fleetWorld, [], []⟩ config ∧
      ∃ opener ∈ config.ended, ∃ sweep ∈ config.ended, ∃ (case : EscalationCase)
        (openedAt now : Instant) (today : Date) (claim : Sent),
        Done.OpensAt opener case openedAt ∧ Done.SweepsAt sweep now today claim ∧
          civilDay now = civilDay openedAt + escalationDays ∧ Done.Flips sweep case.id := by
  have ran : ((system id some).schedule ⟨fleetWorld, [], []⟩
      (failedThenSwept (687599500 * (microsPerSecond / 1000)))).any (fun config =>
        opensThenSweeps config.ended && config.ended.head?.all fun opener =>
          config.ended.getLast?.all (flipsOnEighth opener)) = true := by
    decide +kernel
  obtain ⟨config, ran, holds⟩ := (Option.any_eq_true _ _).mp ran
  obtain ⟨both, flips⟩ := (Bool.and_eq_true _ _).mp holds
  obtain ⟨opener, sweep, case, isHistory, opened, inserted, isSweep, swept⟩ :=
    opensThenSweeps_spec both
  have reached := Reachable.of_schedule ran
  rw [isHistory] at flips
  simp only [List.head?_cons, List.getLast?_cons_cons, List.getLast?_singleton, Option.all_some,
    flipsOnEighth, Bool.and_eq_true, List.all_eq_true, decide_eq_true_eq] at flips
  obtain ⟨⟨firstDay, eighthDay⟩, flipped⟩ := flips
  have sound := (Sound.reachable (system_laws id some) (persistDiscipline id some .unrestricted)
    (Sound.quiet trivial) reached).1
  obtain ⟨openedResult, openedWell⟩ := committed_well opened
  obtain ⟨sweptResult, sweptWell⟩ := committed_well swept
  obtain ⟨_, _, _, _, _, _, openerEnds, _⟩ := sound.concluded opener (by simp [isHistory])
  obtain ⟨_, _, _, _, _, _, sweepEnds, _⟩ := sound.concluded sweep (by simp [isHistory])
  obtain ⟨openedAt, opensAt⟩ := opensAt_of_inserted (openerEnds _ openedWell) inserted
  obtain ⟨now, today, claim, sweeps⟩ := sweepsAt_of_ends isSweep (sweepEnds _ sweptWell)
  refine ⟨config, reached, opener, by simp [isHistory], sweep, by simp [isHistory], case, openedAt,
    now, today, claim, opensAt, sweeps, ?_, ?_⟩
  · obtain ⟨_, _, _, _, _, _, _, clock, _, _, _, _, locks, rfl⟩ := opensAt
    obtain ⟨first, isFirst, _, rfl⟩ := sweeps.timed
    rw [isFirst] at eighthDay
    rw [firstDay clock (locks.order.subset (by simp)), of_decide_eq_true eighthDay]
    rfl
  · obtain ⟨later, laterIn, isLater⟩ := List.any_eq_true.mp (flipped _ inserted)
    exact ⟨later, laterIn, of_decide_eq_true isLater⟩

end Fristenwaechter
