import Mathlib.Data.List.TakeDrop
import Fristenwaechter.Deadlines.Ahead
import Fristenwaechter.Evidence.Chain
import Fristenwaechter.Lockout.Submissions
import Fristenwaechter.Sweeps.SevenDays

/-!
Owns when the evidence of a subject stays one chain while checks interleave: each check
reads the tip and appends, and only that nothing comes between keeps the tip the end.
-/

namespace Fristenwaechter

open Library (Commits Config Journal Over Policy Reachable Sound Table)
open Library.HashChain (Scheme Verified verified_append_singleton)

variable {sha256 : Str → Str} {session after : Session} {db : Db}
variable {subject : Subject} {row : ComplianceCheckLog} {rows : List ComplianceCheckLog}

/-! ### One chain -/

def Db.evidence (db : Db) (subject : Subject) : List ComplianceCheckLog :=
  db.checkLog.rows.filter fun row => row.about subject

/-- One row points to nothing, every other one to a row of the same chain, and no two to the
same. -/
structure OneChain (rows : List ComplianceCheckLog) : Prop where
  root : rows ≠ [] → ∃ root ∈ rows, root.prevHash = none ∧
    ∀ row ∈ rows, row.prevHash = none → row = root
  parent : ∀ row ∈ rows, row.prevHash ≠ none →
    ∃ earlier ∈ rows, row.prevHash = some earlier.entryHash
  unforked : ∀ first ∈ rows, ∀ second ∈ rows, first.prevHash = second.prevHash → first = second

/-- Rows that link up, whatever their hashes are made of. -/
def linkScheme : Scheme ComplianceCheckLog (Option Str) where
  genesis := none
  prev := ComplianceCheckLog.prevHash
  link row := some row.entryHash
  recompute row := some row.entryHash

/-- The rows of each subject link up in the order of their insertion, and the hashes differ. -/
structure Unbroken (db : Db) : Prop where
  linked : ∀ subject, Verified linkScheme none (db.evidence subject)
  distinct : (db.checkLog.rows.map ComplianceCheckLog.entryHash).Nodup

theorem prevs_of_linked {start : Option Str} (linked : Verified linkScheme start rows) :
    rows.map ComplianceCheckLog.prevHash =
      (start :: rows.map fun row => some row.entryHash).take rows.length := by
  induction rows generalizing start with
  | nil => rfl
  | cons row rest inductionHypothesis =>
      obtain ⟨points, _, remaining⟩ := linked
      have isStart : row.prevHash = start := points
      have later := inductionHypothesis remaining
      have isLink : linkScheme.link row = some row.entryHash := rfl
      rw [List.map_cons, later, isStart, isLink]
      simp

theorem oneChain_of_linked (linked : Verified linkScheme none rows)
    (distinct : (rows.map ComplianceCheckLog.entryHash).Nodup) : OneChain rows := by
  have prevs := prevs_of_linked linked
  have links : (none :: rows.map fun row => some row.entryHash).Nodup := by
    refine List.nodup_cons.mpr ⟨by simp, ?_⟩
    have mapped := distinct.map (Option.some_injective Str)
    rwa [List.map_map] at mapped
  have prevsDistinct : (rows.map ComplianceCheckLog.prevHash).Nodup := by
    rw [prevs]
    exact links.sublist (List.take_sublist _ _)
  have unforked : ∀ first ∈ rows, ∀ second ∈ rows, first.prevHash = second.prevHash →
      first = second :=
    fun first firstIn second secondIn => List.inj_on_of_nodup_map prevsDistinct firstIn secondIn
  refine ⟨fun some => ?_, fun row member points => ?_, unforked⟩
  · obtain ⟨root, rest, isRows⟩ := List.exists_cons_of_ne_nil some
    have member : root ∈ rows := by
      rw [isRows]
      exact List.mem_cons_self
    have isRoot : root.prevHash = none := by
      rw [isRows] at linked
      exact linked.1
    exact ⟨root, member, isRoot, fun row inside none =>
      unforked row inside root member (none.trans isRoot.symm)⟩
  · have inside : row.prevHash ∈ rows.map ComplianceCheckLog.prevHash := List.mem_map_of_mem member
    rw [prevs] at inside
    rcases List.mem_cons.mp (List.mem_of_mem_take inside) with isStart | isLink
    · exact absurd isStart points
    · obtain ⟨earlier, earlierIn, same⟩ := List.mem_map.mp isLink
      exact ⟨earlier, earlierIn, same.symm⟩

theorem Unbroken.oneChain (unbroken : Unbroken db) (subject : Subject) :
    OneChain (db.evidence subject) :=
  oneChain_of_linked (unbroken.linked subject)
    (unbroken.distinct.sublist (List.filter_sublist.map _))

/-! ### What a check appends -/

/-- A committed check has appended one row to the chain of a subject, and the row points to
the latest one it has seen of it. -/
structure Extends (after : Session) (subject : Subject) (row : ComplianceCheckLog) (tip : Sent) :
    Prop where
  sent : tip ∈ after.trace
  asked : tip.statement = .latestHash subject
  unwritten : tip.db.checkLog = tip.world.db.checkLog
  about : ∀ other, row.about other = true ↔ other = subject
  link : row.prevHash = (tip.tip subject).map ComplianceCheckLog.entryHash
  only : ∃ first rest, after.writes = first ++ .insertLog row :: rest ∧
    ∀ write ∈ first ++ rest, write.table ≠ .log

/-- A committed check has appended nothing, or one row. -/
def ExtendsOnce (after : Session) : Prop :=
  (∀ write ∈ after.writes, write.table ≠ .log) ∨ ∃ subject row tip, Extends after subject row tip

section Checks

variable {companyId : Uuid} {kind result : Str} {performedOn : Date} {method : Option Str}
variable {performedById : Option Uuid} {tip defaults write : Sent}

theorem about_entryRow {prevHash : Option Str} {entryId : Uuid} {createdAt : Instant}
    (other : Subject) :
    (entryRow sha256 companyId subject.driverId subject.vehicleId kind result performedOn method
      performedById subject.params prevHash entryId createdAt).about other = true ↔
        other = subject := by
  cases subject with
  | driver id =>
      cases other with
      | driver otherId => simp [ComplianceCheckLog.about, entryRow, Subject.driverId, eq_comm]
      | vehicle otherId => simp [ComplianceCheckLog.about, entryRow, Subject.driverId]
  | vehicle id =>
      cases other with
      | driver otherId => simp [ComplianceCheckLog.about, entryRow, Subject.driverId]
      | vehicle otherId =>
          simp only [ComplianceCheckLog.about, entryRow, Subject.driverId, Subject.params,
            Option.isNone_none, Bool.true_and, Json.memberIs_singleton, Subject.vehicle.injEq]
          exact ⟨fun same => (Uuid.text_inj same).symm, fun same => by rw [same]⟩

/-- Evidence that is appended by a session without evidence, and nothing else by the rest of
its transaction. -/
theorem Appends.extends
    (appends : Appends sha256 companyId kind result performedOn subject.driverId subject.vehicleId
      subject method performedById subject.params session row tip defaults write)
    (unlogged : ∀ write ∈ session.writes, write.table ≠ .log) {rest : List Write}
    (others : ∀ write ∈ rest, write.table ≠ .log) (sent : tip ∈ after.trace)
    (whole : after.writes = session.writes ++ .insertLog row :: rest) :
    Extends after subject row tip := by
  refine ⟨sent, appends.read.statement, ?_, ?_, ?_, session.writes, rest, whole, ?_⟩
  · rw [appends.read.db, Db.after_checkLog _ unlogged]
  · intro other
    rw [appends.isRow]
    exact about_entryRow other
  · rw [appends.isRow]
    rfl
  · intro write member
    rcases List.mem_append.mp member with early | late
    · exact unlogged write early
    · exact others write late

theorem RecordsEvidence.extends {parent : Deadline} {log : ComplianceCheckLog}
    {caseId : Option Uuid} {due : Date} {nachpruefung : Bool} {last : Session}
    {lifted pending : List Write}
    (records : RecordsEvidence sha256 companyId result performedOn performedById method parent
      session log caseId due nachpruefung last lifted)
    (unlogged : ∀ write ∈ session.writes, write.table ≠ .log)
    (others : ∀ write ∈ pending, write.table ≠ .log) (grown : last.trace <+: after.trace)
    (whole : after.writes = session.writes ++ .insertLog log :: pending) :
    ∃ subject row tip, Extends after subject row tip := by
  cases records with
  | fsk driverId kind subject lock row driver locked last log tip defaults write reads valid caseId
      lifted lifts due dated =>
      have sameWrites : locked.writes = session.writes := by
        rw [reads.isLocked, Session.withMemory_writes, Session.locked_writes]
      have sent : tip ∈ after.trace := grown.subset (lifts.grown.1.trace.subset (by simp))
      exact ⟨.driver driver.id, log, tip, Appends.extends reads.appends (sameWrites ▸ unlogged)
        others sent (sameWrites ▸ whole)⟩
  | hu vehicleId kind subject lock row vehicle locked asked found isCopy isLocked log tip defaults
      write inspects due nachpruefung =>
      have sameWrites : locked.writes = session.writes := by
        rw [isLocked, Session.withMemory_writes, Session.locked_writes]
      have sent : tip ∈ after.trace := grown.subset (by simp)
      exact ⟨.vehicle vehicle.id, log, tip, Appends.extends inspects.appends
        (sameWrites ▸ unlogged) others sent (sameWrites ▸ whole)⟩
  | uvv vehicleId kind subject log tip defaults write inspects due =>
      have sent : tip ∈ after.trace := grown.subset (by simp)
      exact ⟨.vehicle vehicleId, log, tip, Appends.extends inspects.appends unlogged others sent
        whole⟩

theorem Completes.extends {deadlineId : Uuid} {done : CompletionResult}
    (fresh : session.writes = [])
    (completes : Completes sha256 deadlineId companyId result performedOn performedById method
      session (.ok done) after) : ∃ subject row tip, Extends after subject row tip := by
  cases completes with
  | done lock row parent locked middle last _ locks executed log caseId due nachpruefung lifted
      records defaults drawn written =>
      obtain ⟨entry, _, others⟩ := records.entry
      have updates : middle.writes = parent.update (parent.completed performedOn) := by
        rw [executed.writes, locks.isLocked]
        simp [fresh]
      have unlogged : ∀ write ∈ middle.writes, write.table ≠ .log := by
        intro write member
        rw [updates] at member
        rw [Deadline.mem_update member]
        simp [Write.table]
      have laterOthers : ∀ write ∈ Write.insertDeadline
          (spawn parent due nachpruefung defaults.env.fresh) :: lifted, write.table ≠ .log :=
        List.forall_mem_cons.mpr ⟨by simp [Write.table], others⟩
      refine records.extends unlogged laterOthers
        ((Grown.saw last defaults).trans written.grown).trace ?_
      rw [written.writes, Session.saw_writes, entry, List.append_assoc]
      rfl

theorem RecordsFailed.extends {user : AccountUser} {driverId : Uuid}
    (remembers : session.Remembers) (fresh : session.writes = [])
    (unsaved : session.connection.savepoint = none)
    (records : RecordsFailed sha256 user driverId performedOn session (.ok ()) after) :
    ∃ subject row tip, Extends after subject row tip := by
  generalize isOk : (Except.ok () : Except Error Unit) = answer at records
  cases records with
  | refused => cases isOk
  | escalated log tip defaults write told trigger appends valid asked triggered outcome _ runs =>
      cases outcome with
      | error error => cases isOk
      | ok result =>
          have remembersLog := (((((remembers.saw tip).saw defaults).wrote write
            (.insertLog log) (by simp [Write.table])).saw told).saw trigger)
          obtain ⟨grown, deed, _⟩ := runs.deed remembersLog unsaved
          have sent : tip ∈ after.trace := grown.subset (by simp)
          have unlogged : ∀ write ∈ session.writes, write.table ≠ .log := by simp [fresh]
          rcases deed with ⟨kept, _⟩ | ⟨driver, row, load, lock, now, alert, case, ids, staged,
            locks, _, writes, _⟩
          · have whole : after.writes = session.writes ++ .insertLog log :: [] := by
              rw [Session.writes, kept, ← Session.writes]
              simp
            exact ⟨.driver driverId, log, tip, Appends.extends appends unlogged (by simp) sent
              whole⟩
          · refine ⟨.driver driverId, log, tip, Appends.extends appends unlogged
              (fun write member => (locks.unlogged write member).1) sent ?_⟩
            rw [writes]
            simp

theorem RecordsPassed.extends {user : AccountUser} {driver : Driver} {driverId : Uuid}
    {committed : Session} (fresh : session.writes = []) (clean : session.memory.pending = [])
    (records : RecordsPassed sha256 user driver driverId performedOn session after)
    (executed : Executed (unitOfWork after.memory.pending) (after.withPending []) committed) :
    ∃ subject row tip, Extends committed subject row tip := by
  cases records with
  | completed pick row asked found result _ completes =>
      cases executed.of_clean (completes.clean (by simpa using clean))
      exact completes.extends (by simp [fresh])
  | adHoc pick asked none log tip defaults write appends valid caseId last lifted lifts =>
      obtain ⟨unwritten, others⟩ := lifts.unlogged
      have grown : last.trace <+: committed.trace := executed.grown.trace
      have sent : tip ∈ committed.trace := grown.subset (lifts.grown.1.trace.subset (by simp))
      refine ⟨.driver driverId, log, tip, Appends.extends appends (by simp [fresh]) others sent ?_⟩
      rw [executed.writes, Session.withPending_pending, unitOfWork_lifts lifts]
      simp [unwritten]

end Checks

section Requests

variable {tenant : Option Uuid} {start : Instant} {user : AccountUser} {middle : Session}

theorem recordDriverCheck_extends {driverId : Uuid} {data : Form} {response : Response}
    (checks : ChecksDriver sha256 user driverId data (.opened tenant start) (.ok response) middle)
    (executed : Executed (unitOfWork middle.memory.pending) (middle.withPending []) after) :
    ExtendsOnce after := by
  generalize isOk : (Except.ok response : Except Error Response) = answer at checks
  cases checks with
  | forbidden => cases isOk
  | undated => cases isOk
  | absent performedOn clock load opens missing =>
      cases executed.of_clean rfl
      exact .inl (by simp)
  | failed performedOn clock load row opens found isFailed outcome _ records =>
      obtain ⟨_, _, remembers⟩ := opens.remembers found
      cases outcome with
      | error error => cases isOk
      | ok done =>
          obtain ⟨_, clean⟩ := records.deed remembers rfl rfl
          cases executed.of_clean (clean rfl)
          exact .inr (records.extends remembers rfl rfl)
  | passed performedOn clock load row opens found other _ records =>
      exact .inr (records.extends rfl rfl executed)
  | unpassed => cases isOk

theorem recordVehicleCheck_extends {vehicleId : Uuid}
    (checks : ChecksVehicle sha256 user vehicleId (.opened tenant start) middle)
    (executed : Executed (unitOfWork middle.memory.pending) (middle.withPending []) after) :
    ExtendsOnce after := by
  cases checks with
  | completed clock kind result performedOn pick row asked found done _ completes =>
      cases executed.of_clean (completes.clean rfl)
      exact .inr (completes.extends (by simp))
  | adHoc clock kind label result performedOn pick asked none log tip defaults write inspects =>
      cases executed.of_clean rfl
      have none : ∀ write ∈ ([] : List Write), write.table ≠ .log := by simp
      exact .inr ⟨.vehicle vehicleId, log, tip, Appends.extends inspects.appends (by simp) none
        (by simp) (by simp)⟩

end Requests

/-! ### One commit -/

theorem appended_after {first rest : List Write}
    (replays : Journal.Replays (first ++ .insertLog row :: rest) db)
    (others : ∀ write ∈ first ++ rest, write.table ≠ .log) :
    (∀ stored ∈ db.checkLog, stored.entryHash ≠ row.entryHash) ∧
      (db.after (first ++ .insertLog row :: rest)).checkLog.rows = db.checkLog.rows ++ [row] := by
  have early : (db.after first).checkLog = db.checkLog :=
    Db.after_checkLog _ fun write member => others write (List.mem_append_left _ member)
  obtain ⟨_, valid, _⟩ := Journal.replays_append.mp replays
  change (Write.insertLog row).check (db.after first) = .ok () at valid
  simp only [Write.check, requireNew, ComplianceCheckLog.key_eq, require_then_eq_ok, require_eq_ok,
    Option.isNone_iff_eq_none, List.all_eq_true, decide_eq_true_eq, early] at valid
  refine ⟨valid.2.2, ?_⟩
  rw [Db.after_append, Db.after_cons, Db.after_checkLog _ fun write member =>
    others write (List.mem_append_right _ member)]
  change ((db.after first).checkLog.insert row).rows = _
  rw [early, Table.insert_rows valid.2.1]

/-- Every tip that the session has read was read from all the evidence of its subject that
is committed now, and the latest of it is the one that was inserted last. -/
def Session.readsEnds (now : World) (session : Session) : Bool :=
  session.trace.all fun entry =>
    match entry.statement with
    | .latestHash subject =>
        decide ((Sent.evidence entry subject).length = (now.db.evidence subject).length ∧
          (latestEntry (now.db.evidence subject)).map ComplianceCheckLog.id =
            (now.db.evidence subject).getLast?.map ComplianceCheckLog.id)
    | _ => true

theorem readsEnds_spec {now : World} (reads : Session.readsEnds now after = true) {tip : Sent}
    (sent : tip ∈ after.trace) (asked : tip.statement = .latestHash subject) :
    (tip.evidence subject).length = (now.db.evidence subject).length ∧
      (latestEntry (now.db.evidence subject)).map ComplianceCheckLog.id =
        (now.db.evidence subject).getLast?.map ComplianceCheckLog.id := by
  have clear := List.all_eq_true.mp reads tip sent
  simpa [asked] using clear

theorem latest_of_last
    (same : (latestEntry (db.evidence subject)).map ComplianceCheckLog.id =
      (db.evidence subject).getLast?.map ComplianceCheckLog.id) :
    latestEntry (db.evidence subject) = (db.evidence subject).getLast? := by
  have stored : ∀ found ∈ db.evidence subject, found ∈ db.checkLog :=
    fun found member => (List.mem_filter.mp member).1
  cases latest : latestEntry (db.evidence subject) with
  | none =>
      rw [latestEntry_spec.1 latest]
      rfl
  | some best =>
      have bestIn := (latestEntry_spec.2 best latest).1
      cases last : (db.evidence subject).getLast? with
      | none =>
          rw [List.getLast?_eq_none_iff.mp last] at bestIn
          cases bestIn
      | some final =>
          rw [latest, last] at same
          have sameId : best.id = final.id := Option.some.inj same
          rw [Table.eq_of_key (stored best bestIn)
            (stored final (List.mem_of_getLast? last)) sameId]

theorem tip_of_last : Library.HashChain.tip linkScheme none rows =
    rows.getLast?.map ComplianceCheckLog.entryHash := by
  rcases List.eq_nil_or_concat rows with rfl | ⟨earlier, last, rfl⟩
  · rfl
  · rw [List.concat_eq_append, Library.HashChain.tip_append_singleton, List.getLast?_concat]
    rfl

/-- A tip that was read from all the evidence is the end of the chain. -/
theorem Extends.points {now : World} {tip : Sent} (extended : Extends after subject row tip)
    (seen : Persists tip.world.db now.db) (reads : Session.readsEnds now after = true) :
    row.prevHash = Library.HashChain.tip linkScheme none (now.db.evidence subject) := by
  obtain ⟨sameLength, sameId⟩ := readsEnds_spec reads extended.sent extended.asked
  have visible : (tip.evidence subject).Sublist (now.db.evidence subject) := by
    unfold Sent.evidence Db.evidence
    rw [extended.unwritten]
    refine (List.monotone_filter_right _ fun row => ?_).trans (seen.checkLog.sublist.filter _)
    simp
  have whole := visible.eq_of_length sameLength
  have isTip : tip.tip subject = latestEntry (tip.evidence subject) := rfl
  rw [extended.link, isTip, whole, latest_of_last sameId, tip_of_last]

/-- **One check.** What a check appends to a chain continues it. -/
theorem Extends.unbroken {now : World} {tip : Sent} (extended : Extends after subject row tip)
    (unbroken : Unbroken now.db) (ready : Journal.Replays after.writes now.db)
    (seen : Persists tip.world.db now.db) (reads : Session.readsEnds now after = true) :
    Unbroken (now.db.after after.writes) := by
  have points := extended.points seen reads
  obtain ⟨first, rest, whole, others⟩ := extended.only
  rw [whole] at ready ⊢
  obtain ⟨isNew, appended⟩ := appended_after ready others
  constructor
  · intro other
    have evidence : (now.db.after (first ++ .insertLog row :: rest)).evidence other =
        now.db.evidence other ++ [row].filter fun row => row.about other := by
      rw [Db.evidence, appended, List.filter_append]
      rfl
    rw [evidence]
    by_cases own : other = subject
    · have about : row.about other = true := (extended.about other).mpr own
      simp only [List.filter_cons, about, ↓reduceIte, List.filter_nil]
      rw [own]
      exact verified_append_singleton.mpr ⟨unbroken.linked subject, points, rfl⟩
    · have apart : row.about other = false :=
        Bool.eq_false_iff.mpr fun about => own ((extended.about other).mp about)
      simp only [List.filter_cons, apart, Bool.false_eq_true, ↓reduceIte, List.filter_nil,
        List.append_nil]
      exact unbroken.linked other
  · rw [appended, List.map_append, List.nodup_append]
    refine ⟨unbroken.distinct, by simp, ?_⟩
    intro hash member other isOther same
    obtain ⟨stored, storedIn, rfl⟩ := List.mem_map.mp member
    rw [List.map_singleton, List.mem_singleton] at isOther
    exact isNew stored storedIn (same.trans isOther)

/-! ### Runs -/

section Runs

variable {validateKennzeichen : Str → Option Str}

def Request.recordsCheck : Request → Bool
  | .recordDriverCheck _ _ _ => true
  | .recordVehicleCheck _ _ _ => true
  | _ => false

def checkRequests : Policy World Memory Connection Statement Env Request :=
  { Policy.unrestricted with starts := fun _ request => request.recordsCheck = true }

/-- The runs in which every check that commits has read the end of its chain. -/
def endReaders : Policy World Memory Connection Statement Env Request :=
  { checkRequests with commits := fun _ now session => Session.readsEnds now session = true }

theorem extends_committed {request : Request} {start now : World} {result : Outcome}
    (commits : Commits (system sha256 validateKennzeichen) endReaders readCommitted
      (fun _ => True) (fun before after => Persists before.db after.db) request start after result
      now) : ExtendsOnce after := by
  have ended := commits.ends
  change postgres.Ends (transaction (request.body sha256 validateKennzeichen))
    (Session.opened request.tenant start.clock) (.ok result) after at ended
  rcases transaction_ends ended with ⟨_, middle, same, body, executed⟩ | ⟨_, same, _⟩
  swap
  · cases same
  cases same
  have records := commits.starts
  cases request with
  | recordDriverCheck user driverId data =>
      rcases ends_return.mp body with ⟨response, _, ran⟩ | ⟨_, same, _⟩
      · exact recordDriverCheck_extends (recordDriverCheck_ends sha256 user rfl rfl ran) executed
      · cases same
  | recordVehicleCheck user vehicleId data =>
      rcases ends_return.mp body with ⟨response, _, ran⟩ | ⟨_, same, _⟩
      · exact recordVehicleCheck_extends (recordVehicleCheck_ends sha256 user rfl ran) executed
      · cases same
  | _ => cases records

def UnbrokenAfter (world : World) (_history : List Done) : Prop :=
  Unbroken world.db

theorem UnbrokenAfter.leave {done : Done} {history : List Done}
    (isOver : Over (system sha256 validateKennzeichen) endReaders readCommitted
      (fun _ => True) (fun before after => Persists before.db after.db) done.world done)
    (unbroken : UnbrokenAfter done.world history) :
    UnbrokenAfter ((system sha256 validateKennzeichen).leave done) (history ++ [done]) := by
  by_cases committed : done.isCommitted = true
  · obtain ⟨result, well⟩ := committed_well committed
    obtain ⟨start, commits⟩ := isOver.commits well
    rw [leave_committed well]
    rcases extends_committed commits with nothing | ⟨subject, row, tip, extended⟩
    · have sameLog : (Done.result done).checkLog = done.world.db.checkLog :=
        Db.after_checkLog _ nothing
      have sameEvidence : ∀ subject, Db.evidence (Done.result done) subject =
          done.world.db.evidence subject := by
        intro subject
        unfold Db.evidence
        rw [sameLog]
      have result : Unbroken (Done.result done) := by
        constructor
        · intro subject
          rw [sameEvidence]
          exact unbroken.linked subject
        · rw [sameLog]
          exact unbroken.distinct
      exact result
    · obtain ⟨_, _, _, _, upTo⟩ := commits.chain.seen tip extended.sent
      exact extended.unbroken unbroken commits.chain.ready upTo commits.commits
  · rw [leave_uncommitted (by simpa using committed)]
    exact unbroken

/-- **One chain per subject.** In every interleaving of checks in which each check that
commits has read the end of its chain, the evidence of every driver and of every vehicle is
one chain. -/
theorem evidence_never_forks {world : World} (unbroken : Unbroken world.db)
    {config : Config World Memory Connection Statement Answer Env Error Request Outcome}
    (reached : Reachable (system sha256 validateKennzeichen) endReaders ⟨world, [], []⟩ config)
    (subject : Subject) : OneChain (config.world.db.evidence subject) := by
  have after : UnbrokenAfter config.world config.ended := by
    refine Sound.recorded (system_laws sha256 validateKennzeichen)
      (persistDiscipline sha256 validateKennzeichen endReaders) ?_ UnbrokenAfter.leave
      (Sound.quiet trivial) unbroken reached
    exact fun _ _ known => known
  exact Unbroken.oneChain after subject

end Runs

/-! ### A vehicle with its HU and its UVV -/

def fleetTruck : Vehicle where
  id := fleetId 1001
  companyId := fleetId 100
  kennzeichen := "B-XY 1".toList
  make := none
  model := none
  firstRegistration := none
  huIntervalMonths := 24

def truckDeadline (number : Nat) (kind : DeadlineKind) : Deadline where
  id := fleetId number
  companyId := fleetId 100
  kind := kind
  subject := .vehicle (fleetId 1001)
  dueOn := ⟨2026, 3, 15, by decide⟩
  status := .open
  completedOn := none
  isNachpruefung := false

def truckWorld : World where
  db :=
    { fleetWorld.db with
      vehicles := Table.empty.insert fleetTruck
      deadlines := (Table.empty.insert (truckDeadline 3 .hu)).insert (truckDeadline 4 .uvv) }
  clock := fleetWorld.clock

theorem truckWorld_unbroken : Unbroken truckWorld.db where
  linked _ := trivial
  distinct := List.nodup_nil

def inspectedInTurn : List (Library.Choice Env Request) :=
  .start (vehicleInspection "HU" "PASSED" "2026-01-01") :: fleetRun 0 1 26 ++
    [.finish 0, .start (vehicleInspection "UVV" "PASSED" "2026-01-01")] ++
    fleetRun 0 40 23 ++ [.finish 0]

/-- The HU between the UVV's read of the tip and its first INSERT. -/
def inspectedAtOnce : List (Library.Choice Env Request) :=
  .start (vehicleInspection "UVV" "PASSED" "2026-01-01") :: fleetRun 0 1 11 ++
    .start (vehicleInspection "HU" "PASSED" "2026-01-01") :: fleetRun 1 40 26 ++
    .finish 1 :: fleetRun 0 80 12 ++ [.finish 0]

/-- In turn, the two inspections make a chain of two. -/
theorem evidence_never_forks_inTurn : ∃ config,
    Reachable (system id some) endReaders ⟨truckWorld, [], []⟩ config ∧
      (config.world.db.evidence (.vehicle (fleetId 1001))).length = 2 ∧
        OneChain (config.world.db.evidence (.vehicle (fleetId 1001))) := by
  have ran : ((system id some).checkedSchedule (Policy.check
      (fun _ request => request.recordsCheck) (fun _ _ => true)
        (fun _ now session => Session.readsEnds now session) true) ⟨truckWorld, [], []⟩
          inspectedInTurn).any (fun config =>
            decide ((config.world.db.evidence (.vehicle (fleetId 1001))).length = 2)) = true := by
    decide +kernel
  obtain ⟨config, ran, two⟩ := (Option.any_eq_true _ _).mp ran
  have reached : Reachable (system id some) endReaders ⟨truckWorld, [], []⟩ config := by
    refine Reachable.of_checked (fun checked => Policy.allows_of_check ?_ ?_ ?_ ?_ checked) ran
    · exact fun _ _ records => records
    · exact fun _ _ _ => trivial
    · exact fun _ _ _ reads => reads
    · exact fun _ _ _ _ => trivial
  exact ⟨config, reached, of_decide_eq_true two,
    evidence_never_forks truckWorld_unbroken reached (.vehicle (fleetId 1001))⟩

/-- At once, both find no evidence, and the chain has two roots. -/
theorem inspections_fork :
    ¬ ∀ config, Reachable (system id some) checkRequests ⟨truckWorld, [], []⟩ config →
      ∀ subject, OneChain (config.world.db.evidence subject) := by
  intro claimed
  have ran : ((system id some).checkedSchedule (Policy.check
      (fun _ request => request.recordsCheck) (fun _ _ => true) (fun _ _ _ => true) true)
        ⟨truckWorld, [], []⟩ inspectedAtOnce).any (fun config =>
          (config.world.db.evidence (.vehicle (fleetId 1001))).any fun first =>
            (config.world.db.evidence (.vehicle (fleetId 1001))).any fun second =>
              decide (first.prevHash = second.prevHash ∧ first.id ≠ second.id)) = true := by
    decide +kernel
  obtain ⟨config, ran, forks⟩ := (Option.any_eq_true _ _).mp ran
  obtain ⟨first, firstIn, rest⟩ := List.any_eq_true.mp forks
  obtain ⟨second, secondIn, both⟩ := List.any_eq_true.mp rest
  obtain ⟨samePrev, apart⟩ := of_decide_eq_true both
  have reached : Reachable (system id some) checkRequests ⟨truckWorld, [], []⟩ config := by
    refine Reachable.of_checked (fun checked => Policy.allows_of_check ?_ ?_ ?_ ?_ checked) ran
    · exact fun _ _ records => records
    · exact fun _ _ _ => trivial
    · exact fun _ _ _ _ => trivial
    · exact fun _ _ _ _ => trivial
  have same : first = second := (claimed config reached (.vehicle (fleetId 1001))).unforked first
    firstIn second secondIn samePrev
  exact apart (congrArg ComplianceCheckLog.id same)

end Fristenwaechter
