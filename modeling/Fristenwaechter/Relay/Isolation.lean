import Fristenwaechter.Lockout.Safety
import Fristenwaechter.Relay.Delivery

/-!
Owns isolation inside a relay cycle: a committed row shows the outcome of its own send
exactly if no send of the batch ends in an outcome that cannot be recorded.
-/

namespace Fristenwaechter

open Library (Chain Commits Config Discipline Engine Journal Over Policy Reachable Sound Table)

/-- The committed row shows the outcome of its own send. -/
def Db.Notes (db : Db) (row : OutboxMessage) : Delivery → Prop
  | .delivered messageId => ∃ stored, db.outbox.find row.id = some stored ∧
      stored.sentAt.isSome ∧ stored.providerMessageId = some messageId ∧
      stored.attempts = row.attempts
  | _ => ∃ stored, db.outbox.find row.id = some stored ∧ stored.sentAt = none ∧
      stored.attempts = row.attempts + 1

/-- A `NotifierError`, or an id that fits its column. -/
def Delivery.Recordable : Delivery → Prop
  | .delivered messageId => fits 100 messageId = true
  | .refused _ => True
  | .crashed => False

/-- The stored message ids fit their column. -/
def FittingIds (world : World) : Prop :=
  ∀ row ∈ world.db.outbox, fitsOption 100 row.providerMessageId = true

section Runs

variable {sha256 : Str → Str} {validateKennzeichen : Str → Option Str}
variable {policy : Policy World Memory Connection Statement Env Request}
variable {Inv : World → Prop} {Later : World → World → Prop}
variable {request : Request} {start now : World} {after : Session} {result : Outcome}

theorem inserts_fresh
    (commits : Commits (system sha256 validateKennzeichen) policy readCommitted Inv Later request
      start after result now) :
    ∀ row, .insertOutbox row ∈ after.writes → row.Fresh := by
  intro row member
  by_cases relay : request = .relayOutbox
  · have chain := commits.chain
    have ends := commits.ends
    have cycle : Cycle ⟨request, after, now, some (.ok result)⟩ (.ok result) :=
      cycle_of_chain chain ends relay
    cases cycle.ends with
    | committed entries writes relays sent deliveries whole =>
        have whole : after.writes = unitOfWork writes := whole
        rw [whole] at member
        cases relays.write _ (mem_unitOfWork.mp member)
  · have only := request_enqueues relay commits.ends
    exact only.writes _ member

theorem fitting_after {writes : List Write} {db : Db} (replays : Journal.Replays writes db)
    (fresh : ∀ row, .insertOutbox row ∈ writes → row.Fresh)
    (fitting : ∀ row ∈ db.outbox, fitsOption 100 row.providerMessageId = true) :
    ∀ row ∈ (db.after writes).outbox, fitsOption 100 row.providerMessageId = true := by
  induction writes generalizing db with
  | nil => exact fitting
  | cons write rest inductionHypothesis =>
      rw [Db.after_cons]
      refine inductionHypothesis replays.2
        (fun row member => fresh row (List.mem_cons_of_mem _ member)) ?_
      have valid : write.check db = .ok () := replays.1
      cases write with
      | insertOutbox new =>
          intro row member
          rcases Table.mem_insert.mp member with old | ⟨rfl, _⟩
          · exact fitting row old
          · rw [(fresh _ List.mem_cons_self).providerMessageId]
            rfl
      | updateOutbox loaded current =>
          intro row member
          obtain ⟨old, oldIn, rfl⟩ := (Table.mem_update (by simp)).mp member
          split
          · simp only [Write.check, require_then_eq_ok] at valid
            simp only [OutboxMessage.changed, column]
            split
            · exact fitting old oldIn
            · exact valid.1
          · exact fitting old oldIn
      | deleteOutbox ids =>
          exact fun row member => fitting row (Table.mem_remove.mp member).1
      | _ => exact fitting

theorem relayDiscipline (sha256 : Str → Str) (validateKennzeichen : Str → Option Str)
    (policy : Policy World Memory Connection Statement Env Request) :
    Discipline (system sha256 validateKennzeichen) policy readCommitted FittingIds
      fun _ _ => True where
  refl _ := trivial
  trans _ _ := trivial
  advance fitting _ := ⟨fitting, trivial⟩
  commit commits := ⟨fitting_after commits.chain.ready (inserts_fresh commits) commits.nowInv,
    trivial⟩

/-! ### One cycle -/

/-- The ids of new rows are new. -/
def freshAlerts : Policy World Memory Connection Statement Env Request where
  starts _ _ := True
  calls _ entry := ∀ row, entry.statement = Statement.execute (.insertAlert row) →
    (Sent.db entry).alerts.find row.id = none
  commits _ _ _ := True
  aborts _ _ _ := True

/-- The environment gives the sends of a transaction these outcomes. -/
def Done.Assigns (done : Done) (outcomes : Uuid → Delivery) : Prop :=
  ∀ sent ∈ done.deliveries, sent.2 = outcomes sent.1.id

theorem Done.Assigns.entry {done : Done} {outcomes : Uuid → Delivery}
    (assigns : done.Assigns outcomes) :
    ∀ entry ∈ done.transaction.trace, ∀ row, entry.statement = .deliver row →
      entry.env.delivery = outcomes row.id := by
  intro entry inTrace row asked
  have sent : (row, entry.env.delivery) ∈ done.deliveries :=
    List.mem_filterMap.mpr ⟨entry, inTrace, by simp [Sent.delivers, asked]⟩
  exact assigns _ sent

theorem Handles.notes {row current : OutboxMessage} {delivery : Delivery} {db : Db}
    (handles : Handles row delivery current) (notSent : row.sentAt = none)
    (found : db.outbox.find row.id = some current) : db.Notes row delivery := by
  cases handles with
  | delivered messageId instant => exact ⟨_, found, rfl, rfl, rfl⟩
  | retried error instant delay inRange => exact ⟨_, found, notSent, rfl⟩
  | buried error instant spent => exact ⟨_, found, notSent, rfl⟩

/-- A row as it was claimed shows no outcome. -/
theorem unchanged_notes {row : OutboxMessage} {db : Db} (notSent : row.sentAt = none)
    (found : db.outbox.find row.id = some row) (delivery : Delivery) : ¬ db.Notes row delivery := by
  intro notes
  cases delivery with
  | delivered messageId =>
      obtain ⟨stored, isStored, isSent, _⟩ := notes
      rw [found] at isStored
      cases isStored
      simp [notSent] at isSent
  | refused error =>
      obtain ⟨stored, isStored, _, attempts⟩ := notes
      rw [found] at isStored
      cases isStored
      omega
  | crashed =>
      obtain ⟨stored, isStored, _, attempts⟩ := notes
      rw [found] at isStored
      cases isStored
      omega

theorem checked_of_replays {writes : List Write} {db : Db} (replays : Journal.Replays writes db)
    {write : Write} (member : write ∈ writes) : ∃ middle, write.check middle = .ok () := by
  induction writes generalizing db with
  | nil => cases member
  | cons first rest inductionHypothesis =>
      rcases List.mem_cons.mp member with rfl | member
      · exact ⟨db, replays.1⟩
      · exact inductionHypothesis replays.2 member

theorem Relays.owner {rows : List OutboxMessage} {entries : List Sent} {writes : List Write}
    (relays : Relays rows entries writes) {write : Write} (member : write ∈ writes) :
    ∃ row ∈ rows, ∃ own ownWrites, RelaysRow row own ownWrites ∧ own ⊆ entries ∧
      write ∈ ownWrites := by
  induction relays with
  | nil => cases member
  | @cons row rows entries more writes rest first others inductionHypothesis =>
      rcases List.mem_append.mp member with own | other
      · exact ⟨row, List.mem_cons_self, entries, writes, first, List.subset_append_left _ _, own⟩
      · obtain ⟨owner, inside, own, ownWrites, relaysRow, inEntries, inOwn⟩ :=
          inductionHypothesis other
        exact ⟨owner, List.mem_cons_of_mem _ inside, own, ownWrites, relaysRow,
          fun entry isIn => List.mem_append_right _ (inEntries isIn), inOwn⟩

section Row

variable {row : OutboxMessage} {entries : List Sent} {writes : List Write}
variable {outcomes : Uuid → Delivery}

/-- What a cycle writes for a recordable outcome passes the checks. -/
theorem RelaysRow.checked {db : Db} (relays : RelaysRow row entries writes)
    (assigned : ∀ entry ∈ entries, ∀ own, entry.statement = .deliver own →
      entry.env.delivery = outcomes own.id)
    (recordable : (outcomes row.id).Recordable) (stored : (db.outbox.find row.id).isSome)
    (fitting : fitsOption 100 row.providerMessageId = true) {write : Write}
    (member : write ∈ writes)
    (free : ∀ alert, write = .insertAlert alert → db.alerts.find alert.id = none) :
    write.check db = .ok () := by
  cases relays with
  | delivered send now asked timed messageId outcome =>
      have isOutcome := assigned send (by simp) row asked
      rw [outcome] at isOutcome
      have short : fits 100 messageId = true := by
        rw [← isOutcome] at recordable
        exact recordable
      rw [List.mem_singleton.mp member]
      simp [Write.check, stored, fitsOption, short]
  | refused send now asked timed error outcome delay inRange =>
      rw [List.mem_singleton.mp member]
      simp [Write.check, stored, OutboxMessage.failed, fitting]
  | exhausted send now alert asked timed drawn error outcome spent =>
      rcases List.mem_pair.mp member with rfl | rfl
      · simp [Write.check, stored, OutboxMessage.failed, fitting]
      · have short : fits 40 undeliverableCode = true := by decide +kernel
        have short : fits 40 (undeliverableAlert alert.env.fresh row (row.attempts + 1)).code =
            true := short
        simp [Write.check, requireNew, free _ rfl, short]

/-- A row whose writes have passed their checks had a recordable outcome. -/
theorem RelaysRow.recordable (relays : RelaysRow row entries writes)
    (assigned : ∀ entry ∈ entries, ∀ own, entry.statement = .deliver own →
      entry.env.delivery = outcomes own.id)
    (checked : ∀ write ∈ writes, ∃ db, write.check db = .ok ()) :
    (outcomes row.id).Recordable := by
  cases relays with
  | delivered send now asked timed messageId outcome =>
      obtain ⟨db, valid⟩ := checked _ (List.mem_singleton_self _)
      rw [← assigned send (by simp) row asked, outcome]
      simp only [Write.check, require_then_eq_ok] at valid
      exact valid.1
  | refused send now asked timed error outcome delay inRange =>
      rw [← assigned send (by simp) row asked, outcome]
      trivial
  | exhausted send now alert asked timed drawn error outcome spent =>
      rw [← assigned send (by simp) row asked, outcome]
      trivial

end Row

/-- **One cycle.** It notes the outcomes of all its sends exactly if each of them can be
recorded. -/
theorem Cycle.notes_iff {done : Done} {outcome : Except Error Outcome} (cycle : Cycle done outcome)
    (well : done.outcome = some outcome) {outcomes : Uuid → Delivery}
    (assigns : done.Assigns outcomes) (fitting : FittingIds done.world)
    (ready : Journal.Replays (Session.writes done.transaction) done.world.db)
    (free : ∀ entry ∈ done.transaction.trace, ∀ row,
      entry.statement = .execute (.insertAlert row) → (Sent.db entry).alerts.find row.id = none) :
    (∀ row ∈ done.batch,
        ((system sha256 validateKennzeichen).leave done).db.Notes row (outcomes row.id)) ↔
      ∀ row ∈ done.batch, (outcomes row.id).Recordable := by
  have notSent : ∀ row ∈ done.batch, row.sentAt = none := by
    intro row member
    obtain ⟨now, due⟩ := cycle.due row member
    exact (isDue_open due).1
  have failedNotes : ∀ error, outcome = .error error → ∀ row ∈ done.batch,
      ¬ ((system sha256 validateKennzeichen).leave done).db.Notes row (outcomes row.id) := by
    intro error isError row member
    have left : (system sha256 validateKennzeichen).leave done = done.world := by
      simp [Engine.leave, well, isError]
    rw [left]
    exact unchanged_notes (notSent row member) (cycle.stored row member) _
  cases cycle.ends with
  | committed entries writes relays sent deliveries whole =>
      have left : ((system sha256 validateKennzeichen).leave done).db = done.result := by
        simp only [Engine.leave, well]
        rfl
      constructor
      · intro _ row member
        obtain ⟨own, ownWrites, relaysRow, inEntries, inWrites⟩ := relays.row member
        refine relaysRow.recordable
          (fun entry inOwn => assigns.entry entry (sent (inEntries inOwn))) ?_
        intro write inOwn
        refine checked_of_replays ready ?_
        rw [whole]
        exact mem_unitOfWork.mpr (inWrites inOwn)
      · intro _ row member
        obtain ⟨delivery, current, handles, delivered, found⟩ := cycle.handles.2.1 row member
        rw [← assigns _ delivered, left]
        exact handles.notes (notSent row member) found
  | crashed row send member sent asked isCrash =>
      refine ⟨fun notes => absurd (notes row member) (failedNotes _ rfl row member), ?_⟩
      intro recordable
      have impossible := recordable row member
      rw [← assigns.entry send sent row asked, isCrash] at impossible
      exact impossible.elim
  | refused entries writes write entry error relays sent member asked inTrace failed stored =>
      obtain ⟨row, inRows, own, ownWrites, relaysRow, inEntries, inOwn⟩ := relays.owner member
      refine ⟨fun notes => absurd (notes row inRows) (failedNotes _ rfl row inRows), ?_⟩
      intro recordable
      have inDb : row ∈ done.world.db.outbox := Table.mem_of_find (cycle.stored row inRows)
      have valid : write.check entry.db = .ok () := by
        refine relaysRow.checked (fun entry inOwn => assigns.entry entry (sent (inEntries inOwn)))
          (recordable row inRows) (stored row inRows) (fitting row inDb) inOwn ?_
        rintro alert rfl
        exact free entry inTrace alert asked
      rw [valid] at failed
      cases failed

variable (sha256 : Str → Str) (validateKennzeichen : Str → Option Str)

/-- **Isolation inside a cycle.** After a cycle that ended by itself each claimed row
shows the outcome of its own send exactly if every outcome of the batch can be
recorded. -/
theorem relay_isolates {world : World} (fitting : FittingIds world)
    {config : Config World Memory Connection Statement Answer Env Error Request Outcome}
    (reached : Reachable (system sha256 validateKennzeichen) freshAlerts ⟨world, [], []⟩ config)
    {done : Done} (member : done ∈ config.ended) (isRelay : done.request = .relayOutbox)
    {outcome : Except Error Outcome} (well : done.outcome = some outcome)
    {outcomes : Uuid → Delivery} (assigns : done.Assigns outcomes) :
    (∀ row ∈ done.batch,
        ((system sha256 validateKennzeichen).leave done).db.Notes row (outcomes row.id)) ↔
      ∀ row ∈ done.batch, (outcomes row.id).Recordable := by
  have sound := Sound.reachable (system_laws sha256 validateKennzeichen)
    (relayDiscipline sha256 validateKennzeichen freshAlerts) (.quiet fitting) reached
  obtain ⟨_, doneFits, start, _, _, chain, ends, _⟩ := sound.1.concluded done member
  have cycle : Cycle done outcome := cycle_of_chain chain (ends outcome well) isRelay
  refine cycle.notes_iff well assigns doneFits chain.ready ?_
  intro entry inTrace row asked
  exact (chain.seen entry inTrace).2.2.1 row asked

end Runs

/-! ### Two due messages -/

def fleetMessage (number : Nat) : OutboxMessage :=
  .staged (fleetId number) 1767225000 (fleetId 100) .email "chef@spedition.de".toList
    "reminder".toList [] 5 (decimal number)

def relayWorld : World where
  db :=
    { fleetWorld.db with
      outbox := (Table.empty.insert (fleetMessage 11)).insert (fleetMessage 12) }
  clock := fleetWorld.clock

theorem relayWorld_fits : FittingIds relayWorld := by
  intro row member
  have isMessage : row ∈ [fleetMessage 11, fleetMessage 12] := member
  rcases List.mem_pair.mp isMessage with rfl | rfl <;> rfl

/-- The first message is delivered; the send of the second one ends as given. -/
def relayRun (second : Delivery) (steps : Nat) : List (Library.Choice Env Request) :=
  .start .relayOutbox ::
    (List.range steps).map fun step =>
      .run 0 { fleetEnv (step + 1) with
        delivery := if step < 6 then .delivered "m1".toList else second }

def relayOutcomes (second : Delivery) (id : Uuid) : Delivery :=
  if id = fleetId 12 then second else .delivered "m1".toList

deriving instance DecidableEq for Delivery

def quietCheck (config : Config World Memory Connection Statement Answer Env Error Request Outcome)
    (choice : Library.Choice Env Request) : Bool :=
  Policy.check (fun _ _ => true)
    (fun _ entry => !(entry.statement matches .execute (.insertAlert _)))
    (fun _ _ _ => true) true config choice

theorem quiet_reachable {choices : List (Library.Choice Env Request)}
    {start config : Config World Memory Connection Statement Answer Env Error Request Outcome}
    (ran : (system id some).checkedSchedule quietCheck start choices = some config) :
    Reachable (system id some) freshAlerts start config := by
  refine Reachable.of_checked (fun checked => Policy.allows_of_check ?_ ?_ ?_ ?_ checked) ran
  · exact fun _ _ _ => trivial
  · intro request entry quiet row asked
    rw [asked] at quiet
    cases quiet
  · exact fun _ _ _ _ => trivial
  · exact fun _ _ _ _ => trivial

/-- Both sends succeed. -/
theorem relay_isolates_delivered :
    ∃ config, (system id some).checkedSchedule quietCheck ⟨relayWorld, [], []⟩
        (relayRun (.delivered "m2".toList) 14 ++ [.finish 0]) = some config ∧
      ∃ done ∈ config.ended, done.request = .relayOutbox ∧
        ((∀ row ∈ Done.batch done, ((system id some).leave done).db.Notes row
            (relayOutcomes (.delivered "m2".toList) row.id)) ↔
          ∀ row ∈ Done.batch done,
            (relayOutcomes (.delivered "m2".toList) row.id).Recordable) := by
  have recorded : ((system id some).checkedSchedule quietCheck ⟨relayWorld, [], []⟩
      (relayRun (.delivered "m2".toList) 14 ++ [.finish 0])).any (fun config =>
        config.ended.any fun done => Done.isCycle done &&
          done.outcome.isSome && (Done.deliveries done).all fun sent =>
            sent.2 = relayOutcomes (.delivered "m2".toList) sent.1.id) = true := by
    decide +kernel
  obtain ⟨config, ran, found⟩ := (Option.any_eq_true _ _).mp recorded
  obtain ⟨done, member, holds⟩ := List.any_eq_true.mp found
  simp only [Bool.and_eq_true, List.all_eq_true, decide_eq_true_eq] at holds
  obtain ⟨⟨isRelay, isOver⟩, assigns⟩ := holds
  have isRelay : done.request = .relayOutbox := Done.isCycle_iff.mp isRelay
  obtain ⟨outcome, isOutcome⟩ := Option.isSome_iff_exists.mp isOver
  exact ⟨config, ran, done, member, isRelay,
    relay_isolates id some relayWorld_fits (quiet_reachable ran) member isRelay isOutcome assigns⟩

/-- An exception in the second send undoes the record of the first one. -/
theorem crash_forgets_delivery :
    ¬ ∀ config, Reachable (system id some) freshAlerts ⟨relayWorld, [], []⟩ config →
      ∀ done ∈ config.ended, done.request = .relayOutbox → ∀ outcome, done.outcome = some outcome →
        ∀ outcomes, Done.Assigns done outcomes →
          ∀ row ∈ Done.batch done,
            ((system id some).leave done).db.Notes row (outcomes row.id) := by
  intro claimed
  have recorded : ((system id some).checkedSchedule quietCheck ⟨relayWorld, [], []⟩
      (relayRun .crashed 8 ++ [.finish 0])).any (fun config =>
        config.ended.any fun done => Done.isCycle done &&
          done.outcome.isSome && ((Done.deliveries done).all fun sent =>
            sent.2 = relayOutcomes .crashed sent.1.id) &&
          (Done.batch done).any (fun row => row.id = fleetId 11) &&
          (((system id some).leave done).db.outbox.rows.all fun row => row.sentAt.isNone)) =
        true := by
    decide +kernel
  obtain ⟨config, ran, found⟩ := (Option.any_eq_true _ _).mp recorded
  obtain ⟨done, member, holds⟩ := List.any_eq_true.mp found
  simp only [Bool.and_eq_true, List.all_eq_true, List.any_eq_true, decide_eq_true_eq,
    Option.isNone_iff_eq_none] at holds
  obtain ⟨⟨⟨⟨isRelay, isOver⟩, assigns⟩, row, inBatch, isFirst⟩, unsent⟩ := holds
  have isRelay : done.request = .relayOutbox := Done.isCycle_iff.mp isRelay
  obtain ⟨outcome, isOutcome⟩ := Option.isSome_iff_exists.mp isOver
  have notes := claimed config (quiet_reachable ran) done member isRelay _ isOutcome
    (relayOutcomes .crashed) assigns row inBatch
  rw [isFirst] at notes
  obtain ⟨stored, isStored, isSent, _⟩ := notes
  rw [unsent stored (Table.mem_of_find isStored)] at isSent
  cases isSent

end Fristenwaechter
