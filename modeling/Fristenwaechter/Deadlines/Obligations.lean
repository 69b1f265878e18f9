import Fristenwaechter.Deadlines.Inspections
import Fristenwaechter.Tenancy.References

/-!
Owns the obligations of the fleet: how many OPEN deadlines there are for a subject and a
kind. Creating a subject opens one for each of its kinds, and completing an OPEN one puts
its successor in its place; completing one that is COMPLETED already adds another.
-/

namespace Fristenwaechter

open Library (Commits Config Ended Journal Over Policy Reachable Sound Table)

variable {sha256 : Str → Str} {validateKennzeichen : Str → Option Str}
variable {db : Db} {now : World} {session after : Session} {subject : Subject}
variable {kind : DeadlineKind}

/-! ### Obligations -/

/-- The kinds of deadline that a subject always has. -/
def Subject.obliges : Subject → DeadlineKind → Bool
  | .driver _, .fsk => true
  | .vehicle _, .hu => true
  | .vehicle _, .uvv => true
  | _, _ => false

/-- An OPEN deadline of the subject and kind. -/
def Deadline.isOpenFor (row : Deadline) (subject : Subject) (kind : DeadlineKind) : Bool :=
  row.subject = subject && row.kind = kind && row.status = .open

/-- The number of OPEN deadlines of the subject and kind. -/
def Db.openCount (db : Db) (subject : Subject) (kind : DeadlineKind) : Nat :=
  db.deadlines.rows.countP fun row => row.isOpenFor subject kind

def Db.Has (db : Db) : Subject → Prop
  | .driver id => ∃ row ∈ db.drivers, row.id = id
  | .vehicle id => ∃ row ∈ db.vehicles, row.id = id

/-- Every deadline belongs to a subject, as the foreign keys demand. -/
def Anchored (db : Db) : Prop :=
  ∀ row ∈ db.deadlines, db.Has row.subject

def Write.creates : Write → Option Subject
  | .insertDriver row => some (.driver row.id)
  | .insertVehicle row => some (.vehicle row.id)
  | _ => none

/-- A write that touches no deadline and creates no subject. -/
def Write.Idle (write : Write) : Prop :=
  write.table ≠ .deadline ∧ write.creates = none

theorem Db.Has.later {before later : Db} (persists : Persists before later)
    (has : before.Has subject) : later.Has subject := by
  cases subject with
  | driver id =>
      obtain ⟨row, member, own⟩ := has
      obtain ⟨next, nextIn, follows⟩ := persists.drivers row member
      exact ⟨next, nextIn, follows.id.trans own⟩
  | vehicle id =>
      obtain ⟨row, member, own⟩ := has
      exact ⟨row, persists.vehicles.subset member, own⟩

theorem creates_valid {write : Write} (valid : write.check db = .ok ())
    (creates : write.creates = some subject) :
    ¬ db.Has subject ∧ (write.apply db).Has subject := by
  cases write with
  | insertDriver row =>
      cases creates
      simp only [Write.check, requireNew, require_then_eq_ok, require_eq_ok,
        Option.isNone_iff_eq_none] at valid
      refine ⟨?_, row, Table.mem_insert.mpr (.inr ⟨rfl, valid.2⟩), rfl⟩
      rintro ⟨taken, member, own⟩
      exact Table.find_eq_none.mp valid.2 taken member own
  | insertVehicle row =>
      cases creates
      simp only [Write.check, requireNew, require_then_eq_ok, require_eq_ok,
        Option.isNone_iff_eq_none] at valid
      refine ⟨?_, row, Table.mem_insert.mpr (.inr ⟨rfl, valid.2⟩), rfl⟩
      rintro ⟨taken, member, own⟩
      exact Table.find_eq_none.mp valid.2 taken member own
  | _ => cases creates

theorem deadline_origin {writes : List Write} {row : Deadline}
    (member : row ∈ (db.after writes).deadlines) :
    (∃ old ∈ db.deadlines, old.subject = row.subject) ∨
      ∃ inserted, .insertDeadline inserted ∈ writes ∧ inserted.subject = row.subject := by
  induction writes generalizing db with
  | nil => exact .inl ⟨row, member, rfl⟩
  | cons write rest inductionHypothesis =>
      rw [Db.after_cons] at member
      rcases inductionHypothesis member with ⟨old, oldIn, same⟩ | ⟨inserted, insertedIn, same⟩
      swap
      · exact .inr ⟨inserted, List.mem_cons_of_mem _ insertedIn, same⟩
      cases write with
      | insertDeadline new =>
          rcases Table.mem_insert.mp oldIn with earlier | ⟨rfl, _⟩
          · exact .inl ⟨old, earlier, same⟩
          · exact .inr ⟨old, List.mem_cons_self, same⟩
      | updateDeadline loaded current =>
          obtain ⟨earlier, earlierIn, isOld⟩ := (Table.mem_update (by simp)).mp oldIn
          refine .inl ⟨earlier, earlierIn, ?_⟩
          rw [← same, isOld]
          split <;> rfl
      | _ => exact .inl ⟨old, oldIn, same⟩

theorem anchored_after {writes : List Write} (anchored : Anchored db)
    (replays : Journal.Replays writes db)
    (inserted : ∀ row, .insertDeadline row ∈ writes → (db.after writes).Has row.subject) :
    Anchored (db.after writes) := by
  intro row member
  rcases deadline_origin member with ⟨old, oldIn, same⟩ | ⟨new, newIn, same⟩
  · exact same ▸ (anchored old oldIn).later (persists_after replays)
  · exact same ▸ inserted new newIn

theorem openCount_of_new (anchored : Anchored db) (isNew : ¬ db.Has subject) :
    db.openCount subject kind = 0 := by
  refine List.countP_eq_zero.mpr fun row member counted => ?_
  simp only [Deadline.isOpenFor, Bool.and_eq_true, decide_eq_true_eq] at counted
  exact isNew (counted.1.1 ▸ anchored row member)

/-! ### Counting writes -/

theorem replays_deadlines {other : Db} {writes : List Write}
    (same : db.deadlines = other.deadlines) (replays : Journal.Replays writes db) :
    Journal.Replays (deadlineWrites writes) other := by
  induction writes generalizing db other with
  | nil => trivial
  | cons write rest inductionHypothesis =>
      obtain ⟨valid, later⟩ := replays
      change Journal.Replays rest (write.apply db) at later
      by_cases isDeadline : write.table = .deadline
      · rw [deadlineWrites, List.filter_cons_of_pos (by simpa using isDeadline)]
        change write.check db = .ok () at valid
        constructor
        · change write.check other = .ok ()
          cases write <;> simp [Write.table] at isDeadline <;>
            simpa [Write.check, requireNew, same] using valid
        · refine inductionHypothesis ?_ later
          change (write.apply db).deadlines = (write.apply other).deadlines
          cases write <;> simp [Write.table] at isDeadline <;> simp [Write.apply, same]
      · rw [deadlineWrites, List.filter_cons_of_neg (by simpa using isDeadline)]
        refine inductionHypothesis ?_ later
        cases write <;> first | exact same | exact absurd rfl isDeadline

theorem openCount_after (writes : List Write) :
    (db.after writes).openCount subject kind =
      (db.after (deadlineWrites writes)).openCount subject kind := by
  rw [Db.openCount, deadlines_after rfl]
  rfl

theorem openCount_inserted {rows : List Deadline}
    (replays : Journal.Replays (rows.map Write.insertDeadline) db) :
    (db.after (rows.map Write.insertDeadline)).openCount subject kind =
      db.openCount subject kind + rows.countP fun row => row.isOpenFor subject kind := by
  induction rows generalizing db with
  | nil => rfl
  | cons row rest inductionHypothesis =>
      obtain ⟨valid, later⟩ := replays
      change Journal.Replays _ ((Write.insertDeadline row).apply db) at later
      change requireNew db.deadlines row = .ok () at valid
      simp only [requireNew, require_eq_ok, Option.isNone_iff_eq_none] at valid
      have grown : ((Write.insertDeadline row).apply db).openCount subject kind =
          db.openCount subject kind + if row.isOpenFor subject kind then 1 else 0 := by
        change (db.deadlines.insert row).rows.countP _ = _
        rw [Table.insert_rows valid, List.countP_append, List.countP_singleton]
        rfl
      rw [List.map_cons, Db.after_cons, inductionHypothesis later, grown, List.countP_cons]
      omega

theorem openCount_completed {row parent : Deadline} {completedOn : Date}
    (stored : row ∈ db.deadlines) (own : parent.id = row.id) (copyOpen : parent.status = .open) :
    ((Write.updateDeadline parent (parent.completed completedOn)).apply db).openCount subject kind +
        (if row.isOpenFor subject kind then 1 else 0) =
      db.openCount subject kind := by
  have found : db.deadlines.find parent.id = some row := by
    rw [own]
    exact Table.find_of_mem stored
  have keeps : ∀ other, Library.Keyed.key (Deadline.changed parent (parent.completed completedOn)
      other) = Library.Keyed.key other := by simp
  have counted := Table.countP_update keeps found fun row => row.isOpenFor subject kind
  have closed : (Deadline.changed parent (parent.completed completedOn) row).isOpenFor subject
      kind = false := by
    simp [Deadline.isOpenFor, Deadline.changed, Deadline.completed, column, copyOpen]
  rw [closed] at counted
  exact counted

/-! ### Idle writes -/

theorem driver_update_idle {loaded current : Driver} :
    ∀ write ∈ loaded.update current, write.Idle := by
  intro write member
  exact Driver.mem_update member ▸ ⟨by simp [Write.table], rfl⟩

theorem Resolves.idle {resolvedById : Option Uuid} {found : Option EscalationCase}
    {resolving : List Write} (resolves : Resolves resolvedById found resolving) :
    ∀ write ∈ resolving, write.Idle := by
  cases resolves with
  | nothing => simp
  | resolved case instant => simp [Write.Idle, Write.table, Write.creates]

theorem Lifts.idle {last : Session} {result : Str} {resolvedById : Option Uuid} {driver : Driver}
    {caseId : Option Uuid} {lifted : List Write}
    (lifts : Lifts result resolvedById driver session caseId last lifted) :
    ∀ write ∈ lifted, write.Idle := by
  cases lifts with
  | other differs => simp
  | passed same seen more writes asked resolves =>
      intro write member
      rcases List.mem_append.mp member with update | resolve
      · exact driver_update_idle write update
      · exact resolves.idle write resolve

theorem LiftsOrNot.idle {parent : Deadline} {result : Str} {performedById : Option Uuid}
    {trace : List Sent} {lifted : List Write}
    (lifts : LiftsOrNot parent result performedById trace lifted) :
    ∀ write ∈ lifted, write.Idle := by
  cases lifts with
  | nothing _ => simp
  | lifts driver load seen resolving kind subject passed lifts =>
      intro write member
      rcases List.mem_append.mp member with update | resolve
      · exact driver_update_idle write update
      · exact lifts.resolves.idle write resolve

theorem LocksOut.idle {companyId triggerCheckId : Uuid} {recipients : List Recipient}
    {trace : List Sent} {driver row : Driver} {load lock entry alert : Sent}
    {case : EscalationCase} {createdAt : Instant} {ids : List Uuid} {staged : List Write}
    (locks : LocksOut companyId triggerCheckId recipients trace driver row load lock entry alert
      case createdAt ids staged) : ∀ write ∈ staged, write.Idle := by
  rw [locks.staged]
  intro write member
  rcases List.mem_append.mp member with locking | telling
  · rcases List.mem_append.mp locking with update | isCase
    · exact driver_update_idle write update
    · exact List.mem_singleton.mp isCase ▸ ⟨by simp [Write.table], rfl⟩
  · rcases List.mem_append.mp telling with message | isAlert
    · obtain ⟨row, _, rfl⟩ := List.mem_map.mp message
      exact ⟨by simp [Write.table], rfl⟩
    · exact List.mem_singleton.mp isAlert ▸ ⟨by simp [Write.table], rfl⟩

theorem deadlineWrites_idle {writes : List Write} (all : ∀ write ∈ writes, write.Idle) :
    deadlineWrites writes = [] := by
  refine List.filter_eq_nil_iff.mpr fun write member isDeadline => ?_
  exact (all write member).1 (of_decide_eq_true isDeadline)

theorem deadlineWrites_creates {write : Write} {rows : List Deadline}
    (creates : write.creates = some subject) :
    deadlineWrites (write :: rows.map Write.insertDeadline) = rows.map Write.insertDeadline := by
  have apart : write.table ≠ .deadline := by
    cases write <;> simp [Write.creates, Write.table] at creates ⊢
  rw [deadlineWrites, List.filter_cons_of_neg (by simpa using apart)]
  refine List.filter_eq_self.mpr fun other member => ?_
  obtain ⟨row, _, rfl⟩ := List.mem_map.mp member
  rfl

/-! ### What a commit does to the deadlines -/

/-- Every deadline that the session has locked was OPEN. -/
def Session.locksOpen (session : Session) : Bool :=
  session.trace.all fun entry =>
    match entry.statement with
    | .deadlineForUpdate deadlineId companyId =>
        (Sent.deadline entry deadlineId companyId).all fun row => row.status = .open
    | _ => true

theorem open_of_locksOpen (checked : Session.locksOpen session = true) {entry : Sent}
    (sent : entry ∈ session.trace) {deadlineId companyId : Uuid}
    (asked : entry.statement = .deadlineForUpdate deadlineId companyId) {row : Deadline}
    (found : entry.deadline deadlineId companyId = some row) : row.status = .open := by
  have clear := List.all_eq_true.mp checked entry sent
  simpa [asked, found] using clear

/-- What a commit does to the deadlines: nothing; it creates a subject with its deadlines;
or it puts a successor in the place of an OPEN one. -/
inductive Turns (now : World) (after : Session) : Prop
  | idle (all : ∀ write ∈ after.writes, write.Idle)
  | creates (write : Write) (subject : Subject) (rows : List Deadline)
      (isNew : write.creates = some subject)
      (whole : after.writes = write :: rows.map Write.insertDeadline)
      (own : ∀ row ∈ rows, row.subject = subject)
      (kinds : ∀ kind, rows.countP (fun row => row.isOpenFor subject kind) =
        if subject.obliges kind then 1 else 0)
  | completes (row parent successor : Deadline) (completedOn : Date)
      (stored : row ∈ now.db.deadlines) (own : parent.id = row.id)
      (copyOpen : parent.status = .open) (subject : successor.subject = row.subject)
      (replaces : ∀ subject kind, successor.isOpenFor subject kind = row.isOpenFor subject kind)
      (creates : ∀ write ∈ after.writes, write.creates = none)
      (touched : deadlineWrites after.writes =
        [.updateDeadline parent (parent.completed completedOn), .insertDeadline successor])

theorem turns_of_completes {deadlineId companyId : Uuid} {result : Str} {completedOn : Date}
    {performedById : Option Uuid} {method : Option Str} {completion : CompletionResult}
    (remembers : session.Remembers) (fresh : session.writes = [])
    (copies : ∀ copy ∈ session.memory.deadlines, copy.status = .open ∧
      ∃ later ∈ now.db.deadlines, copy.Later later)
    (kept : ∀ lock ∈ Journal.held Db after.connection.journal, Kept lock.1 lock.2.db now.db)
    (checked : Session.locksOpen after = true)
    (completes : Completes sha256 deadlineId companyId result completedOn performedById method
      session (.ok completion) after) : Turns now after := by
  obtain ⟨lock, row, parent, locked, log, due, nachpruefung, successor, lifted, locks, _,
    ⟨_, grown⟩, writes, lifts⟩ := completes.deed remembers (by simp [fresh])
  have found := (Option.filter_eq_some_iff.mp locks.found).1
  rw [locks.asked.db, fresh, Db.after_nil] at found
  have inTrace : lock ∈ after.trace := grown.trace.subset (by simp [locks.isLocked])
  have isOpen := open_of_locksOpen checked inTrace locks.asked.statement locks.found
  -- the lock keeps the row until the commit
  have held : (Ref.deadline deadlineId, lock.world) ∈
      Journal.held Db after.connection.journal := by
    obtain ⟨rest, whole⟩ := grown.journal
    rw [← whole, Journal.held_append]
    refine List.mem_append_left _ ?_
    rw [locks.isLocked]
    change _ ∈ Journal.held Db (session.connection.lock lock.world _).journal
    rw [Connection.lock, Journal.held_append]
    exact List.mem_append_right _ (by simp [Journal.held, Journal.refs])
  have same : now.db.deadlines.find deadlineId = lock.world.db.deadlines.find deadlineId :=
    kept _ held
  have stored : row ∈ now.db.deadlines := Table.mem_of_find (same.trans found)
  obtain ⟨source, own⟩ := instanceOf_key session.memory.deadlines row
  rw [← locks.isCopy] at source own
  have copied : parent.status = .open ∧ parent.subject = row.subject ∧ parent.kind = row.kind := by
    rcases source with copy | rfl
    · obtain ⟨copyOpen, later, laterIn, follows⟩ := copies parent copy
      have same : later = row := Table.eq_of_key laterIn stored (follows.id.trans own)
      exact ⟨copyOpen, same ▸ follows.subject.symm, same ▸ follows.kind.symm⟩
    · exact ⟨isOpen, rfl, rfl⟩
  obtain ⟨copyOpen, subject, kind⟩ := copied
  rw [fresh, List.nil_append, update_completed copyOpen] at writes
  refine .completes row parent (spawn parent due nachpruefung successor) completedOn stored own
    copyOpen subject (fun other otherKind => ?_) (fun write member => ?_) ?_
  · simp [Deadline.isOpenFor, spawn, subject, kind, isOpen]
  · rw [writes] at member
    simp only [List.singleton_append, List.mem_cons] at member
    rcases member with rfl | rfl | rfl | lift
    · rfl
    · rfl
    · rfl
    · exact (lifts.idle write lift).2
  · rw [writes, deadlineWrites, List.singleton_append, List.filter_cons_of_pos (by rfl),
      List.filter_cons_of_neg (by simp [Write.table]), List.filter_cons_of_pos (by rfl)]
    rw [show lifted.filter (fun write => write.table = .deadline) = [] from
      deadlineWrites_idle lifts.idle]

section Requests

variable {start : Instant} {user : AccountUser} {response : Response} {middle : Session}

theorem picked_later {pick : Sent} {row : Deadline}
    (seen : ∀ entry ∈ after.trace, Persists entry.world.db now.db) (sent : pick ∈ after.trace)
    (fresh : session.writes = []) (asked : session.Asked (.openDeadline subject kind) pick)
    (found : row ∈ pick.openDeadlinesOf subject kind) :
    ∀ copy ∈ [row], copy.status = .open ∧ ∃ later ∈ now.db.deadlines, copy.Later later := by
  obtain ⟨inView, holds⟩ := List.mem_filter.mp found
  simp only [Bool.and_eq_true, decide_eq_true_eq] at holds
  rw [asked.db, fresh, Db.after_nil] at inView
  intro copy member
  exact List.mem_singleton.mp member ▸ ⟨holds.2, (seen pick sent).deadlines row inView⟩

theorem createDriver_turns
    (creates : CreatesDriver user (.opened (some user.companyId) start) response middle)
    (executed : Executed (unitOfWork middle.memory.pending) (middle.withPending []) after) :
    Turns now after := by
  cases creates with
  | rejected =>
      cases executed.of_clean rfl
      exact .idle (by simp)
  | created first last given drawn write second clock anchor dueOn asked inserted valid isGiven
      dated drawnAgain =>
      refine .creates (.insertDriver (.created drawn.env.fresh user.companyId first last given)) _
        [.opened second.env.fresh user.companyId .fsk (.driver drawn.env.fresh) dueOn] rfl ?_ ?_ ?_
      · rw [executed.writes]
        simp
      · intro row member
        exact List.mem_singleton.mp member ▸ rfl
      · intro kind
        cases kind <;> simp [Deadline.isOpenFor, Deadline.opened, Subject.obliges, Driver.created]

theorem createVehicle_turns
    (creates : CreatesVehicle user (.opened (some user.companyId) start) response middle)
    (executed : Executed (unitOfWork middle.memory.pending) (middle.withPending []) after) :
    Turns now after := by
  cases creates with
  | rejected =>
      cases executed.of_clean rfl
      exact .idle (by simp)
  | created vehicle drawn write second third clock anchor huDue uvvDue asked isNew own inserted
      valid huDated uvvDated =>
      refine .creates (.insertVehicle vehicle) _
        [.opened second.env.fresh user.companyId .hu (.vehicle vehicle.id) huDue,
          .opened third.env.fresh user.companyId .uvv (.vehicle vehicle.id) uvvDue] rfl ?_ ?_ ?_
      · rw [executed.writes]
        simp
        rfl
      · intro row member
        simp only [List.mem_cons, List.not_mem_nil, or_false] at member
        rcases member with rfl | rfl <;> rfl
      · intro kind
        cases kind <;> simp [Deadline.isOpenFor, Deadline.opened, Subject.obliges]

theorem recordDriverCheck_turns {driverId : Uuid} {data : Form}
    (seen : ∀ entry ∈ after.trace, Persists entry.world.db now.db)
    (kept : ∀ lock ∈ Journal.held Db after.connection.journal, Kept lock.1 lock.2.db now.db)
    (checked : Session.locksOpen after = true)
    (checks : ChecksDriver sha256 user driverId data (.opened (some user.companyId) start)
      (.ok response) middle)
    (executed : Executed (unitOfWork middle.memory.pending) (middle.withPending []) after) :
    Turns now after := by
  have remembersOpened := Session.opened_remembers (some user.companyId) start
  generalize isOk : (Except.ok response : Except Error Response) = answer at checks
  cases checks with
  | forbidden => cases isOk
  | undated => cases isOk
  | absent performedOn clock load opens missing =>
      cases executed.of_clean rfl
      exact .idle (by simp)
  | failed performedOn clock load row opens found result outcome _ records =>
      obtain ⟨copied, sameTenant, remembers⟩ := opens.remembers found
      cases records with
      | refused => cases isOk
      | escalated log tip defaults write told trigger appends valid asked triggered outcome _
          runs =>
          cases outcome with
          | error error => cases isOk
          | ok result =>
              have remembersLog := (((((remembers.saw tip).saw defaults).wrote write
                (.insertLog log) (by simp [Write.table])).saw told).saw trigger)
              obtain ⟨_, deed, clean⟩ := runs.deed remembersLog rfl
              cases executed.of_clean (clean rfl)
              have logIdle : (Write.insertLog log).Idle := ⟨by simp [Write.table], rfl⟩
              rcases deed with ⟨kept, _⟩ | ⟨driver, row, load, lock, entry, alert, case, ids,
                staged, locks, _, writes, _⟩
              · refine .idle fun written member => ?_
                have same : after.writes = [.insertLog log] := by
                  rw [Session.writes, kept, ← Session.writes]
                  simp
                rw [same, List.mem_singleton] at member
                exact member ▸ logIdle
              · refine .idle fun written member => ?_
                rw [writes] at member
                rcases List.mem_append.mp member with first | later
                · have isLog : written = .insertLog log := by simpa using first
                  exact isLog ▸ logIdle
                · exact locks.idle written later
  | passed performedOn clock load row opens found result _ records =>
      obtain ⟨copied, sameTenant, remembers⟩ := opens.remembers found
      cases records with
      | completed pick picked asked isOpen result _ completes =>
          cases executed.of_clean (completes.clean rfl)
          have grown := completes.grown ?_ rfl
          · refine turns_of_completes ?_ rfl (picked_later seen (grown.trace.subset (by simp)) rfl
              asked isOpen) kept checked completes
            exact (remembers.saw pick).withMemory rfl
          · exact (remembers.saw pick).withMemory rfl
      | adHoc pick asked none log tip defaults write appends valid caseId last lifted lifts =>
          have whole : after.writes = [.insertLog log] ++ lifted := by
            rw [executed.writes, Session.withPending_pending, unitOfWork_lifts lifts]
            simp [lifts.grown.2.1]
          refine .idle fun written member => ?_
          rw [whole] at member
          rcases List.mem_append.mp member with first | lift
          · exact List.mem_singleton.mp first ▸ ⟨by simp [Write.table], rfl⟩
          · exact lifts.idle written lift
  | unpassed => cases isOk

theorem recordVehicleCheck_turns {vehicleId : Uuid}
    (seen : ∀ entry ∈ after.trace, Persists entry.world.db now.db)
    (kept : ∀ lock ∈ Journal.held Db after.connection.journal, Kept lock.1 lock.2.db now.db)
    (checked : Session.locksOpen after = true)
    (checks : ChecksVehicle sha256 user vehicleId (.opened (some user.companyId) start) middle)
    (executed : Executed (unitOfWork middle.memory.pending) (middle.withPending []) after) :
    Turns now after := by
  have remembersOpened := Session.opened_remembers (some user.companyId) start
  cases checks with
  | completed clock kind result performedOn pick picked asked found done _ completes =>
      cases executed.of_clean (completes.clean rfl)
      have grown := completes.grown ?_ rfl
      · refine turns_of_completes ?_ rfl (picked_later seen (grown.trace.subset (by simp)) rfl asked
          found) kept checked completes
        exact ((remembersOpened.sawAll clock).saw pick).withMemory rfl
      · exact ((remembersOpened.sawAll clock).saw pick).withMemory rfl
  | adHoc clock kind label result performedOn pick asked none log tip defaults write inspects =>
      cases executed.of_clean rfl
      refine .idle fun written member => ?_
      have isLog : written = .insertLog log := by simpa using member
      exact isLog ▸ ⟨by simp [Write.table], rfl⟩

end Requests

/-! ### Exactly one -/

/-- The subject exists, and has exactly one OPEN deadline of each of its kinds. -/
structure Db.Obliged (db : Db) (subject : Subject) : Prop where
  has : db.Has subject
  one : ∀ kind, subject.obliges kind = true → db.openCount subject kind = 1

theorem turns_anchored (turns : Turns now after) (ready : Journal.Replays after.writes now.db)
    (anchored : Anchored now.db) : Anchored (now.db.after after.writes) := by
  refine anchored_after anchored ready fun row inserted => ?_
  cases turns with
  | idle all => exact absurd rfl (all _ inserted).1
  | creates write subject rows isNew whole own kinds =>
      rw [whole] at inserted ready ⊢
      rcases List.mem_cons.mp inserted with rfl | member
      · cases isNew
      · obtain ⟨other, otherIn, same⟩ := List.mem_map.mp member
        cases same
        rw [own _ otherIn, Db.after_cons]
        exact (creates_valid ready.1 isNew).2.later (persists_after ready.2)
  | completes old parent successor completedOn stored own copyOpen subject replaces creates
      touched =>
      have member : .insertDeadline row ∈ deadlineWrites after.writes :=
        List.mem_filter.mpr ⟨inserted, rfl⟩
      rw [touched] at member
      have isSuccessor : row = successor := by simpa using member
      rw [isSuccessor, subject]
      exact (anchored old stored).later (persists_after ready)

/-- A commit keeps exactly one OPEN deadline where there is exactly one. -/
theorem turns_obliged (turns : Turns now after) (ready : Journal.Replays after.writes now.db)
    (obliged : now.db.Obliged subject) : (now.db.after after.writes).Obliged subject := by
  refine ⟨obliged.has.later (persists_after ready), fun kind obliges => ?_⟩
  rw [← obliged.one kind obliges, openCount_after]
  have replays := replays_deadlines rfl ready
  cases turns with
  | idle all =>
      rw [deadlineWrites_idle all]
      rfl
  | creates write other rows isNew whole own kinds =>
      have onlyRows : deadlineWrites after.writes = rows.map Write.insertDeadline := by
        rw [whole, deadlineWrites_creates isNew]
      rw [onlyRows] at replays ⊢
      rw [openCount_inserted replays, Nat.add_eq_left]
      refine List.countP_eq_zero.mpr fun row member counted => ?_
      simp only [Deadline.isOpenFor, Bool.and_eq_true, decide_eq_true_eq] at counted
      rw [whole] at ready
      have same : other = subject := (own row member).symm.trans counted.1.1
      exact (creates_valid ready.1 isNew).1 (same ▸ obliged.has)
  | completes row parent successor completedOn stored own copyOpen about replaces creates
      touched =>
      rw [touched] at replays ⊢
      obtain ⟨_, replays⟩ := replays
      have closed := @openCount_completed now.db subject kind row parent completedOn stored own
        copyOpen
      have inserted := @openCount_inserted _ subject kind [successor] replays
      simp only [List.countP_singleton, replaces] at inserted
      exact inserted.trans closed

/-- A created subject has exactly one OPEN deadline of each of its kinds. -/
theorem turns_creates (turns : Turns now after) (ready : Journal.Replays after.writes now.db)
    (anchored : Anchored now.db) {write : Write} (written : write ∈ after.writes)
    (creates : write.creates = some subject) : (now.db.after after.writes).Obliged subject := by
  cases turns with
  | idle all =>
      rw [(all write written).2] at creates
      cases creates
  | creates first other rows isNew whole own kinds =>
      rw [whole] at written
      rcases List.mem_cons.mp written with rfl | member
      swap
      · obtain ⟨row, _, same⟩ := List.mem_map.mp member
        subst same
        cases creates
      have same : other = subject := Option.some.inj (isNew.symm.trans creates)
      subst same
      have replays := replays_deadlines rfl ready
      rw [whole, deadlineWrites_creates isNew] at replays
      have begins := ready
      rw [whole] at begins
      obtain ⟨isFree, has⟩ := creates_valid begins.1 isNew
      refine ⟨?_, fun kind obliges => ?_⟩
      · rw [whole, Db.after_cons]
        exact has.later (persists_after begins.2)
      · rw [openCount_after, whole, deadlineWrites_creates isNew, openCount_inserted replays,
          openCount_of_new anchored isFree, kinds, if_pos obliges]
  | completes old parent successor completedOn stored own copyOpen about replaces none touched =>
      rw [none write written] at creates
      cases creates

/-! ### Runs -/

def Request.onDeadlines : Request → Bool
  | .createDriver _ _ => true
  | .createVehicle _ _ => true
  | .recordDriverCheck _ _ _ => true
  | .recordVehicleCheck _ _ _ => true
  | .completeDeadline _ _ _ _ _ _ _ => true
  | _ => false

def deadlineRequests : Policy World Memory Connection Statement Env Request :=
  { Policy.unrestricted with starts := fun _ request => request.onDeadlines = true }

/-- The runs in which every completion that commits has found its deadline OPEN. -/
def openCompletions : Policy World Memory Connection Statement Env Request :=
  { deadlineRequests with commits := fun _ _ session => Session.locksOpen session = true }

/-- The committed transaction has created the subject. -/
def Done.Creates (done : Done) (subject : Subject) : Prop :=
  done.isCommitted = true ∧
    ∃ write ∈ Session.writes done.transaction, write.creates = some subject

/-- Every subject that the history has created has its OPEN deadlines. -/
structure Accounted (world : World) (history : List Done) : Prop where
  anchored : Anchored world.db
  obliged : ∀ done ∈ history, ∀ subject, Done.Creates done subject → world.db.Obliged subject

theorem turns_committed {request : Request} {start : World} {result : Outcome}
    (commits : Commits (system sha256 validateKennzeichen) openCompletions readCommitted
      (fun _ => True) (fun before after => Persists before.db after.db) request start after result
      now) : Turns now after := by
  have seen : ∀ entry ∈ after.trace, Persists entry.world.db now.db := by
    intro entry member
    obtain ⟨_, _, _, _, upTo⟩ := commits.chain.seen entry member
    exact upTo
  have kept := commits.chain.kept
  have checked : Session.locksOpen after = true := commits.commits
  have ended := commits.ends
  change postgres.Ends (transaction (request.body sha256 validateKennzeichen))
    (Session.opened request.tenant start.clock) (.ok result) after at ended
  rcases transaction_ends ended with ⟨_, middle, same, body, executed⟩ | ⟨_, same, _⟩
  swap
  · cases same
  cases same
  have onDeadlines := commits.starts
  cases request with
  | createDriver user data =>
      rcases ends_return.mp body with ⟨response, _, ran⟩ | ⟨_, same, _⟩
      · exact createDriver_turns (createDriver_ends user rfl ran) executed
      · cases same
  | createVehicle user data =>
      rcases ends_return.mp body with ⟨response, _, ran⟩ | ⟨_, same, _⟩
      · exact createVehicle_turns (createVehicle_ends validateKennzeichen user rfl ran) executed
      · cases same
  | recordDriverCheck user driverId data =>
      rcases ends_return.mp body with ⟨response, _, ran⟩ | ⟨_, same, _⟩
      · exact recordDriverCheck_turns seen kept checked
          (recordDriverCheck_ends sha256 user rfl rfl ran) executed
      · cases same
  | recordVehicleCheck user vehicleId data =>
      rcases ends_return.mp body with ⟨response, _, ran⟩ | ⟨_, same, _⟩
      · exact recordVehicleCheck_turns seen kept checked
          (recordVehicleCheck_ends sha256 user rfl ran) executed
      · cases same
  | completeDeadline tenant deadlineId companyId checkResult completedOn performedById method =>
      rcases ends_return.mp body with ⟨completion, _, ran⟩ | ⟨_, same, _⟩
      · have completes := completeDeadline_ends rfl ran
        cases executed.of_clean (completes.clean rfl)
        exact turns_of_completes (Session.opened_remembers _ _) rfl
          (fun _ member => absurd member List.not_mem_nil) kept checked completes
      · cases same
  | _ => cases onDeadlines

theorem Accounted.leave {done : Done} {history : List Done}
    (isOver : Over (system sha256 validateKennzeichen) openCompletions readCommitted
      (fun _ => True) (fun before after => Persists before.db after.db) done.world done)
    (accounted : Accounted done.world history) :
    Accounted ((system sha256 validateKennzeichen).leave done) (history ++ [done]) := by
  by_cases committed : done.isCommitted = true
  · obtain ⟨result, well⟩ := committed_well committed
    obtain ⟨start, commits⟩ := isOver.commits well
    have turns := turns_committed commits
    have ready := commits.chain.ready
    rw [leave_committed well]
    refine ⟨turns_anchored turns ready accounted.anchored, fun other member subject created => ?_⟩
    rcases List.mem_append.mp member with old | new
    · exact turns_obliged turns ready (accounted.obliged other old subject created)
    · obtain ⟨_, write, written, creates⟩ := List.mem_singleton.mp new ▸ created
      exact turns_creates turns ready accounted.anchored written creates
  · rw [leave_uncommitted (by simpa using committed)]
    refine ⟨accounted.anchored, fun other member subject created => ?_⟩
    rcases List.mem_append.mp member with old | new
    · exact accounted.obliged other old subject created
    · exact absurd (List.mem_singleton.mp new ▸ created).1 committed

/-- **One OPEN deadline per obligation.** In every run in which each completion that commits
has found its deadline OPEN, a driver that the run has created has exactly one OPEN FSK
deadline, and a vehicle exactly one OPEN HU and one OPEN UVV. -/
theorem one_open_deadline {world : World} (anchored : Anchored world.db)
    {config : Config World Memory Connection Statement Answer Env Error Request Outcome}
    (reached : Reachable (system sha256 validateKennzeichen) openCompletions ⟨world, [], []⟩ config)
    {done : Done} (member : done ∈ config.ended) {subject : Subject}
    (created : done.Creates subject) {kind : DeadlineKind} (obliges : subject.obliges kind = true) :
    config.world.db.openCount subject kind = 1 := by
  have accounted : Accounted config.world config.ended := by
    refine Sound.recorded (system_laws sha256 validateKennzeichen)
      (persistDiscipline sha256 validateKennzeichen openCompletions) ?_ Accounted.leave
      (Sound.quiet trivial) ?_ reached
    · exact fun _ _ known => ⟨known.anchored, known.obliged⟩
    · exact ⟨anchored, fun _ member => absurd member List.not_mem_nil⟩
  exact (accounted.obliged done member subject created).one kind obliges

/-! ### A vehicle of the fleet -/

def fleetCompletion : Request :=
  .completeDeadline none (fleetId 1006) (fleetId 100) resultPassed ⟨2026, 1, 31, by decide⟩ none
    none

def completedFleet : List (Library.Choice Env Request) :=
  .start (fleetVehicle "24") :: fleetRun 0 1 13 ++ [.finish 0, .start fleetCompletion] ++
    fleetRun 0 30 23 ++ [.finish 0]

def completedAgain : List (Library.Choice Env Request) :=
  completedFleet ++ .start fleetCompletion :: fleetRun 0 60 22 ++ [.finish 0]

def createsVehicle (done : Done) : Bool :=
  Done.isCommitted done && (Session.writes done.transaction).any fun write =>
    write.creates = some (.vehicle (fleetId 1001))

theorem createsVehicle_spec {done : Done} (creates : createsVehicle done = true) :
    Done.Creates done (.vehicle (fleetId 1001)) := by
  obtain ⟨committed, written⟩ := (Bool.and_eq_true _ _).mp creates
  obtain ⟨write, member, isNew⟩ := List.any_eq_true.mp written
  exact ⟨committed, write, member, of_decide_eq_true isNew⟩

/-- The HU of a vehicle after one completion. -/
theorem one_open_deadline_fleet : ∃ config done,
    Reachable (system id some) openCompletions ⟨fleetWorld, [], []⟩ config ∧ done ∈ config.ended ∧
      Done.Creates done (.vehicle (fleetId 1001)) ∧ config.ended.length = 2 ∧
      config.world.db.openCount (.vehicle (fleetId 1001)) .hu = 1 := by
  have ran : ((system id some).checkedSchedule (Policy.check (fun _ request => request.onDeadlines)
      (fun _ _ => true) (fun _ _ session => Session.locksOpen session) true) ⟨fleetWorld, [], []⟩
        completedFleet).any (fun config =>
          decide (config.ended.length = 2) && config.ended.any createsVehicle) = true := by
    decide +kernel
  obtain ⟨config, ran, holds⟩ := (Option.any_eq_true _ _).mp ran
  obtain ⟨two, found⟩ := (Bool.and_eq_true _ _).mp holds
  obtain ⟨done, member, creates⟩ := List.any_eq_true.mp found
  have reached : Reachable (system id some) openCompletions ⟨fleetWorld, [], []⟩ config := by
    refine Reachable.of_checked (fun checked => Policy.allows_of_check ?_ ?_ ?_ ?_ checked) ran
    · exact fun _ _ onDeadlines => onDeadlines
    · exact fun _ _ _ => trivial
    · exact fun _ _ _ locksOpen => locksOpen
    · exact fun _ _ _ _ => trivial
  exact ⟨config, done, reached, member, createsVehicle_spec creates, of_decide_eq_true two,
    one_open_deadline (fun _ member => absurd member List.not_mem_nil) reached member
      (createsVehicle_spec creates) rfl⟩

/-- Completing the same HU twice leaves two of them OPEN. -/
theorem completed_twice : ∃ config done,
    Reachable (system id some) deadlineRequests ⟨fleetWorld, [], []⟩ config ∧
      done ∈ config.ended ∧ Done.Creates done (.vehicle (fleetId 1001)) ∧
      config.ended.length = 3 ∧ config.world.db.openCount (.vehicle (fleetId 1001)) .hu = 2 := by
  have ran : ((system id some).checkedSchedule (Policy.check (fun _ request => request.onDeadlines)
      (fun _ _ => true) (fun _ _ _ => true) true) ⟨fleetWorld, [], []⟩ completedAgain).any
        (fun config => config.ended.any createsVehicle && decide (config.ended.length = 3 ∧
          config.world.db.openCount (.vehicle (fleetId 1001)) .hu = 2)) = true := by
    decide +kernel
  obtain ⟨config, ran, holds⟩ := (Option.any_eq_true _ _).mp ran
  obtain ⟨found, both⟩ := (Bool.and_eq_true _ _).mp holds
  obtain ⟨done, member, creates⟩ := List.any_eq_true.mp found
  refine ⟨config, done, ?_, member, createsVehicle_spec creates, of_decide_eq_true both⟩
  refine Reachable.of_checked (fun checked => Policy.allows_of_check ?_ ?_ ?_ ?_ checked) ran
  · exact fun _ _ onDeadlines => onDeadlines
  · exact fun _ _ _ => trivial
  · exact fun _ _ _ _ => trivial
  · exact fun _ _ _ _ => trivial

end Fristenwaechter
