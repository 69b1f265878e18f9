import Fristenwaechter.Sweeps.SevenDays

/-!
Owns what becomes of a closed escalation case. A sweep holds the cases it has read; a
PASSED check reads the OPEN case without a lock and later updates it by its key, so it
writes over a breach that was committed in between, and over nothing else.
-/

namespace Fristenwaechter

open Library (Config Discipline Ended Journal Over Policy Reachable Sound Table)

variable {sha256 : Str → Str} {validateKennzeichen : Str → Option Str}
variable {db : Db} {now : World} {after : Session} {caseId : Uuid} {status : EscalationStatus}

/-- The case is closed with the status. -/
def Db.ClosedAs (db : Db) (caseId : Uuid) (status : EscalationStatus) : Prop :=
  (status = .breached ∨ status = .resolvedPassed) ∧
    ∃ case ∈ db.cases, case.id = caseId ∧ case.status = status

def Session.resolvesUnbreached (session : Session) (now : World) : Bool :=
  session.writes.all fun write =>
    match write with
    | .updateCase change =>
        change.current.status ≠ .resolvedPassed ||
          now.db.cases.rows.all fun stored =>
            stored.id ≠ change.loaded.id || stored.status ≠ .breached
    | _ => true

/-- Runs in which no sweep breaches a case between a check's SELECT of it and the check's
commit. -/
def undisturbed : Policy World Memory Connection Statement Env Request :=
  { Policy.unrestricted with
    commits := fun _ now session => Session.resolvesUnbreached session now = true }

theorem unbreached_of_resolves (checked : Session.resolvesUnbreached after now = true)
    {change : CaseChange} (updates : .updateCase change ∈ after.writes)
    (resolves : change.current.status = .resolvedPassed) :
    ¬ now.db.ClosedAs change.loaded.id .breached := by
  rintro ⟨_, stored, member, own, isBreached⟩
  have clear := List.all_eq_true.mp checked _ updates
  simp only [resolves, Bool.or_eq_true, decide_eq_true_eq, List.all_eq_true, ne_eq,
    not_true_eq_false, decide_false, Bool.false_eq_true, false_or] at clear
  rcases clear stored member with apart | apart
  · exact apart own
  · exact apart isBreached

/-! ### What a commit does to cases -/

/-- How a committed transaction updates a case: it resolves one that it has read OPEN, or
it is a sweep, which still holds the OPEN case. -/
inductive Updates (now : World) (after : Session) (change : CaseChange) : Prop
  | resolves (was : change.loaded.status = .open)
      (becomes : change.current.status = .resolvedPassed)
      (only : ∀ other, .updateCase other ∈ after.writes → other = change)
  | sweeps (was : change.loaded.status = .open) (stored : change.loaded ∈ now.db.cases)
      (becomes : change.current.status = .open ∨ change.current.status = .breached)
      (agree : ∀ other, .updateCase other ∈ after.writes → other.loaded.id = change.loaded.id →
        other.current.status = change.current.status)

theorem Write.Elsewhere.not_updateCase {write : Write} (elsewhere : write.Elsewhere)
    (change : CaseChange) : write ≠ .updateCase change := by
  rintro rfl
  exact elsewhere.2 rfl

theorem driver_update_not_updateCase {loaded current : Driver} {change : CaseChange} :
    .updateCase change ∉ loaded.update current := by
  unfold Driver.update
  split <;> simp

theorem claimedCase_stored {claim : Sent} (claims : Claims after claim)
    (kept : ∀ lock ∈ Journal.held Db after.connection.journal, Kept lock.1 lock.2.db now.db)
    {case : EscalationCase} (claimed : case ∈ claim.claimableCases) : case ∈ now.db.cases := by
  have inClaim : case ∈ claim.world.db.cases := by
    rw [← claims.unwritten]
    exact (List.mem_filter.mp claimed).1
  have found : now.db.cases.find case.id = claim.world.db.cases.find case.id :=
    kept _ (claims.held case claimed)
  exact Table.mem_of_find (found.trans (Table.find_of_mem inClaim))

theorem updates_of_deed (deed : Deed after)
    (kept : ∀ lock ∈ Journal.held Db after.connection.journal, Kept lock.1 lock.2.db now.db)
    {change : CaseChange} (updates : .updateCase change ∈ after.writes) :
    Updates now after change := by
  cases deed with
  | calm all => exact (all _ updates).elim
  | locksOut companyId triggerCheckId recipients driver row load lock clock alert opened createdAt
      ids first staged locks other whole =>
      rw [whole, locks.staged] at updates
      simp only [List.mem_append, lockWrites] at updates
      rcases updates with early | (update | isCase) | telling
      · exact absurd rfl ((other _ early).not_updateCase change)
      · exact absurd update driver_update_not_updateCase
      · simp at isCase
      · exact absurd rfl ((tellWrites_elsewhere _ telling).not_updateCase change)
  | lifts resolvedById driver load seen first resolving lifts other whole =>
      have inResolving : ∀ wanted, .updateCase wanted ∈ after.writes →
          .updateCase wanted ∈ resolving := by
        intro wanted member
        rw [whole] at member
        simp only [List.mem_append] at member
        rcases member with early | update | resolves
        · exact absurd rfl ((other _ early).not_updateCase wanted)
        · exact absurd update driver_update_not_updateCase
        · exact resolves
      have reads := lifts.resolves
      cases found : seen.openCase driver.id with
      | none =>
          rw [found] at reads
          cases reads
          exact absurd (inResolving change updates) List.not_mem_nil
      | some case =>
          rw [found] at reads
          cases reads with
          | resolved _ instant =>
              have same : ∀ wanted, .updateCase wanted ∈ after.writes →
                  wanted = case.resolved instant resolvedById := by
                intro wanted member
                simpa using inResolving wanted member
              rw [same change updates]
              exact .resolves (openCase_spec lifts.unwritten found).2.2 rfl same
  | sweeps instant today claim claims all =>
      have unique : ∀ case ∈ claim.claimableCases, ∀ other ∈ claim.claimableCases,
          other.id = case.id → other = case := fun case claimed other otherClaimed same =>
        Table.eq_of_key (claimedCase_stored claims kept otherClaimed)
          (claimedCase_stored claims kept claimed) same
      have isOpen := claimableCases_open claim
      have swept := all _ updates
      generalize isUpdate : Write.updateCase change = write at swept
      cases swept with
      | breach case claimed late =>
          cases isUpdate
          refine .sweeps (isOpen case claimed) (claimedCase_stored claims kept claimed)
            (.inr rfl) ?_
          intro other member same
          have otherSwept := all _ member
          generalize isOther : Write.updateCase other = otherWrite at otherSwept
          cases otherSwept with
          | breach again _ _ =>
              cases isOther
              rfl
          | nag again againClaimed inTime =>
              cases isOther
              exact absurd (unique case claimed again againClaimed same ▸ late) inTime
          | _ => cases isOther
      | nag case claimed inTime =>
          cases isUpdate
          refine .sweeps (isOpen case claimed) (claimedCase_stored claims kept claimed)
            (.inl (isOpen case claimed)) ?_
          intro other member same
          have otherSwept := all _ member
          generalize isOther : Write.updateCase other = otherWrite at otherSwept
          cases otherSwept with
          | breach again againClaimed late =>
              cases isOther
              exact absurd (unique case claimed again againClaimed same ▸ late) inTime
          | nag again againClaimed _ =>
              cases isOther
              rw [unique case claimed again againClaimed same]
          | _ => cases isOther
      | _ => cases isUpdate

theorem closedAs_after {writes : List Write} (closed : db.ClosedAs caseId status)
    (stays : ∀ change, .updateCase change ∈ writes → change.loaded.id = caseId →
      column change.loaded.status change.current.status status = status) :
    (db.after writes).ClosedAs caseId status := by
  induction writes generalizing db with
  | nil => exact closed
  | cons write rest inductionHypothesis =>
      rw [Db.after_cons]
      refine inductionHypothesis ?_ fun change member =>
        stays change (List.mem_cons_of_mem _ member)
      obtain ⟨isClosed, case, member, own, has⟩ := closed
      refine ⟨isClosed, ?_⟩
      cases write with
      | insertCase row => exact ⟨case, Table.mem_insert.mpr (.inl member), own, has⟩
      | updateCase change =>
          refine ⟨_, (Table.mem_update (by simp)).mpr ⟨case, member, rfl⟩, ?_⟩
          split
          · rename_i hit
            have same : change.loaded.id = caseId :=
              (by simpa using hit.symm : _ = case.id).trans own
            refine ⟨own, ?_⟩
            change column change.loaded.status change.current.status case.status = status
            rw [has]
            exact stays change List.mem_cons_self same
          · exact ⟨own, has⟩
      | _ => exact ⟨case, member, own, has⟩

/-- A commit that resolves no BREACHED case keeps every closed case as it was closed. -/
theorem closedAs_committed (deed : Deed after)
    (kept : ∀ lock ∈ Journal.held Db after.connection.journal, Kept lock.1 lock.2.db now.db)
    (checked : Session.resolvesUnbreached after now = true)
    (closed : now.db.ClosedAs caseId status) :
    (now.db.after after.writes).ClosedAs caseId status := by
  refine closedAs_after closed fun change updates same => ?_
  cases updates_of_deed deed kept updates with
  | resolves was becomes only =>
      rcases closed.1 with rfl | rfl
      · exact absurd (same ▸ closed) (unbreached_of_resolves checked updates becomes)
      · rw [was, becomes]
        rfl
  | sweeps was stored becomes agree =>
      obtain ⟨isClosed, case, member, own, has⟩ := closed
      have one : case = change.loaded := Table.eq_of_key member stored (own.trans same.symm)
      rw [one, was] at has
      simp [← has] at isClosed

theorem closes_committed (deed : Deed after)
    (kept : ∀ lock ∈ Journal.held Db after.connection.journal, Kept lock.1 lock.2.db now.db)
    (ready : Journal.Replays after.writes now.db) {change : CaseChange}
    (updates : .updateCase change ∈ after.writes)
    (closing : change.current.status = .breached ∨ change.current.status = .resolvedPassed) :
    (now.db.after after.writes).ClosedAs change.loaded.id change.current.status := by
  have known := updates_of_deed deed kept updates
  have agree : ∀ other, .updateCase other ∈ after.writes → other.loaded.id = change.loaded.id →
      other.current.status = change.current.status := by
    intro other member same
    cases known with
    | resolves _ _ only => rw [only other member]
    | sweeps _ _ _ agree => exact agree other member same
  have was : change.loaded.status = .open := by
    cases known with
    | resolves was _ _ => exact was
    | sweeps was _ _ _ => exact was
  obtain ⟨first, rest, whole⟩ := List.append_of_mem updates
  rw [whole] at ready agree ⊢
  obtain ⟨_, valid, _⟩ := Journal.replays_append.mp ready
  change (Write.updateCase change).check (now.db.after first) = .ok () at valid
  simp only [Write.check, require_eq_ok] at valid
  obtain ⟨row, found⟩ := Option.isSome_iff_exists.mp valid
  have own : row.id = change.loaded.id := Table.key_of_find found
  rw [Db.after_append, Db.after_cons]
  refine closedAs_after ⟨closing, change.loaded.changed change.current row,
    (Table.mem_update (by simp)).mpr ⟨row, Table.mem_of_find found, ?_⟩, own, ?_⟩ ?_
  · exact (if_pos own).symm
  · change column change.loaded.status change.current.status row.status = change.current.status
    refine if_neg fun same => ?_
    rw [was] at same
    simp [same] at closing
  · intro other member same
    rw [agree other (by simp [member]) same]
    exact column_current _ _

/-! ### Whole runs -/

def Done.Closes (done : Done) (caseId : Uuid) (status : EscalationStatus) : Prop :=
  done.isCommitted = true ∧ ∃ change, .updateCase change ∈ Session.writes done.transaction ∧
    change.loaded.id = caseId ∧ change.current.status = status ∧
    (status = .breached ∨ status = .resolvedPassed)

/-- The committed sweep tells somebody that the case is breached. -/
def Done.Broadcasts (done : Done) (caseId : Uuid) : Prop :=
  done.isCommitted = true ∧ done.request = .sweepEscalations ∧
    ∃ row, .insertOutbox row ∈ Session.writes done.transaction ∧ row.Announces caseId

def StaysClosed (before later : World) : Prop :=
  ∀ caseId status, before.db.ClosedAs caseId status → later.db.ClosedAs caseId status

/-- Every case that the history has closed is still closed so. -/
def KeptClosed (world : World) (history : List Done) : Prop :=
  ∀ done ∈ history, ∀ caseId status, Done.Closes done caseId status →
    world.db.ClosedAs caseId status

variable (sha256 : Str → Str) (validateKennzeichen : Str → Option Str)

theorem closedDiscipline : Discipline (system sha256 validateKennzeichen) undisturbed
    readCommitted (fun _ => True) StaysClosed where
  refl _ _ _ closed := closed
  trans one two caseId status closed := two caseId status (one caseId status closed)
  advance _ _ := ⟨trivial, fun _ _ closed => closed⟩
  commit := by
    intro request start after result now commits
    exact ⟨trivial, fun caseId status closed =>
      closedAs_committed (deed commits.ends) commits.chain.kept commits.commits closed⟩

variable {sha256 validateKennzeichen}

theorem Done.Broadcasts.closes {world : World} {done : Done} {result : Outcome}
    (ended : (system sha256 validateKennzeichen).Ends
      ((system sha256 validateKennzeichen).program done.request)
      ((system sha256 validateKennzeichen).opening world done.request) (.ok result)
      done.transaction)
    (broadcasts : Done.Broadcasts done caseId) : Done.Closes done caseId .breached := by
  obtain ⟨committed, isSweep, row, inserted, contact, _, _, _, isKey⟩ := broadcasts
  obtain ⟨instant, today, claim, sweeps⟩ := sweepsAt_of_ends isSweep ended
  have swept := sweeps.all _ inserted
  generalize isInsert : Write.insertOutbox row = write at swept
  cases swept with
  | breachMessage case claimed late driver id createdAt target =>
      cases isInsert
      have own : case.id = caseId := breachKey_inj isKey
      exact ⟨committed, case.breach, sweeps.flips case claimed late, own, rfl, .inl rfl⟩
  | nagMessage case claimed inTime driver id createdAt target =>
      cases isInsert
      exact absurd isKey nagKey_ne_breachKey
  | _ => cases isInsert

theorem KeptClosed.leave {done : Done} {history : List Done}
    (isOver : Over (system sha256 validateKennzeichen) undisturbed readCommitted (fun _ => True)
      StaysClosed done.world done)
    (known : KeptClosed done.world history) :
    KeptClosed ((system sha256 validateKennzeichen).leave done) (history ++ [done]) := by
  intro other member caseId status closes
  by_cases committed : done.isCommitted = true
  · obtain ⟨result, well⟩ := committed_well committed
    obtain ⟨start, commits⟩ := isOver.commits well
    rw [leave_committed well]
    rcases List.mem_append.mp member with old | new
    · exact closedAs_committed (deed commits.ends) commits.chain.kept commits.commits
        (known other old _ _ closes)
    · obtain ⟨_, change, updates, rfl, rfl, closing⟩ := List.mem_singleton.mp new ▸ closes
      exact closes_committed (deed commits.ends) commits.chain.kept commits.chain.ready updates
        closing
  · rw [leave_uncommitted (by simpa using committed)]
    rcases List.mem_append.mp member with old | new
    · exact known other old _ _ closes
    · exact absurd (List.mem_singleton.mp new ▸ closes).1 committed

/-- **Closed cases stay closed as they were.** In every run in which no sweep breaches a
case between a check's SELECT of it and the check's commit, a case that is BREACHED or
RESOLVED_PASSED keeps its status, and a breach broadcast and a resolution are never both
committed for one case. -/
theorem closed_cases_stay {world : World}
    {config later : Config World Memory Connection Statement Answer Env Error Request Outcome}
    (reached : Reachable (system sha256 validateKennzeichen) undisturbed ⟨world, [], []⟩ config)
    (continued : Reachable (system sha256 validateKennzeichen) undisturbed config later) :
    StaysClosed config.world later.world ∧
      ∀ sweep ∈ later.ended, ∀ check ∈ later.ended, ∀ caseId, Done.Broadcasts sweep caseId →
        ¬ Done.Closes check caseId .resolvedPassed := by
  have laws := system_laws sha256 validateKennzeichen
  have discipline := closedDiscipline sha256 validateKennzeichen
  have quiet : Sound (system sha256 validateKennzeichen) undisturbed readCommitted
      (fun _ => True) StaysClosed ⟨world, [], []⟩ := .quiet trivial
  have sound := (Sound.reachable laws discipline quiet reached).1
  obtain ⟨last, stays⟩ := Sound.reachable laws discipline sound continued
  refine ⟨stays, ?_⟩
  intro sweep sweepIn check checkIn caseId broadcasts resolves
  have known : KeptClosed later.world later.ended := by
    refine Sound.recorded laws discipline (fun _ _ known => known) KeptClosed.leave quiet ?_
      (reached.trans continued)
    exact fun _ member => absurd member List.not_mem_nil
  obtain ⟨result, well⟩ := committed_well broadcasts.1
  obtain ⟨start, commits⟩ := (last.concluded sweep sweepIn).commits well
  obtain ⟨_, first, firstIn, firstOwn, isBreached⟩ :=
    known sweep sweepIn _ _ (Done.Broadcasts.closes commits.ends broadcasts)
  obtain ⟨_, second, secondIn, secondOwn, isResolved⟩ := known check checkIn _ _ resolves
  have same : first = second := Table.eq_of_key firstIn secondIn (firstOwn.trans secondOwn.symm)
  rw [same, isResolved] at isBreached
  cases isBreached

/-! ### A fleet -/

/-- A FAILED check, and a PASSED one up to its SELECT of the OPEN case. -/
def fleetPassing : List (Library.Choice Env Request) :=
  .start (fleetCheck "FAILED".toList) :: fleetRun 0 1 46 ++
    [.finish 0, .start (fleetCheck "PASSED".toList)] ++ fleetRun 0 60 18

def fleetSweep (index : Nat) : List (Library.Choice Env Request) :=
  .start .sweepEscalations :: fleetRun index 700000000000 29 ++ [.finish index]

def onlyCase (status : EscalationStatus) (world : World) : Bool :=
  world.db.cases.rows.map EscalationCase.status = [status]

/-- A check that passes before the sweep. -/
theorem closed_cases_stay_fleet : ∃ config later,
    Reachable (system id some) undisturbed ⟨fleetWorld, [], []⟩ config ∧
    Reachable (system id some) undisturbed config later ∧
    onlyCase .resolvedPassed config.world = true ∧ later.ended.length = 3 ∧
    StaysClosed config.world later.world := by
  have ran : ((system id some).checkedSchedule (Policy.check (fun _ _ => true) (fun _ _ => true)
        (fun _ now session => Session.resolvesUnbreached session now) true) ⟨fleetWorld, [], []⟩
        (fleetPassing ++ fleetRun 0 80 7 ++ [.finish 0])).any (fun config =>
      ((system id some).checkedSchedule (Policy.check (fun _ _ => true) (fun _ _ => true)
          (fun _ now session => Session.resolvesUnbreached session now) true) config
          (.start .sweepEscalations :: fleetRun 0 700000000000 8 ++ [.finish 0])).any fun later =>
        onlyCase .resolvedPassed config.world && decide (later.ended.length = 3)) = true := by
    decide +kernel
  obtain ⟨config, first, rest⟩ := (Option.any_eq_true _ _).mp ran
  obtain ⟨later, second, holds⟩ := (Option.any_eq_true _ _).mp rest
  obtain ⟨isResolved, three⟩ := (Bool.and_eq_true _ _).mp holds
  have allowed : ∀ {config : Config World Memory Connection Statement Answer Env Error Request
      Outcome} {choice}, Policy.check (fun _ _ => true) (fun _ _ => true)
      (fun _ now session => Session.resolvesUnbreached session now) true config choice = true →
      undisturbed.Allows config choice :=
    Policy.allows_of_check (fun _ _ _ => trivial) (fun _ _ _ => trivial)
      (fun _ _ _ checked => checked) fun _ _ _ _ => trivial
  have reached := Reachable.of_checked allowed first
  have continued := Reachable.of_checked allowed second
  exact ⟨config, later, reached, continued, isResolved, of_decide_eq_true three,
    (closed_cases_stay reached continued).1⟩

/-- A sweep breaches the case between the SELECT and the commit of a PASSED check, and the
check writes over the breach. -/
theorem breach_overwritten : ∃ middle later,
    Reachable (system id some) .unrestricted ⟨fleetWorld, [], []⟩ middle ∧
    Reachable (system id some) .unrestricted middle later ∧
    onlyCase .breached middle.world = true ∧ onlyCase .resolvedPassed later.world = true ∧
    ¬ StaysClosed middle.world later.world := by
  have ran : ((system id some).schedule ⟨fleetWorld, [], []⟩ (fleetPassing ++ fleetSweep 1)).any
      (fun middle =>
        ((system id some).schedule middle (fleetRun 0 800000000000 7 ++ [.finish 0])).any
          fun later => onlyCase .breached middle.world && onlyCase .resolvedPassed later.world) =
          true := by
    decide +kernel
  obtain ⟨middle, first, rest⟩ := (Option.any_eq_true _ _).mp ran
  obtain ⟨later, second, holds⟩ := (Option.any_eq_true _ _).mp rest
  obtain ⟨isBreached, isResolved⟩ := (Bool.and_eq_true _ _).mp holds
  refine ⟨middle, later, .of_schedule first, .of_schedule second, isBreached, isResolved,
    fun stays => ?_⟩
  have breached : middle.world.db.cases.rows.map EscalationCase.status = [.breached] :=
    of_decide_eq_true isBreached
  have resolved : later.world.db.cases.rows.map EscalationCase.status = [.resolvedPassed] :=
    of_decide_eq_true isResolved
  obtain ⟨case, rows, isStatus⟩ := List.map_eq_singleton_iff.mp breached
  have closed : middle.world.db.ClosedAs case.id .breached :=
    ⟨.inl rfl, case, by simp [Table.mem_iff, rows], rfl, isStatus⟩
  obtain ⟨_, other, otherIn, _, otherBreached⟩ := stays case.id .breached closed
  have inStatuses := List.mem_map_of_mem (f := EscalationCase.status) (Table.mem_iff.mp otherIn)
  rw [resolved, otherBreached] at inStatuses
  simp at inStatuses

end Fristenwaechter
