import Fristenwaechter.Relay.Isolation

/-!
Owns the outbox over whole runs: every interleaving of the relay's cycles with all other
transactions keeps the rows tracked by their history and the dead letters in balance with
their alerts.
-/

namespace Fristenwaechter

open Library (Chain Commits Config Discipline Engine Journal Keyed Over Policy Reachable Sound
  Table)

/-! ### Other transactions -/

section Others

variable {writes : List Write} {db : Db}

theorem insertOutbox_valid {row : OutboxMessage}
    (valid : (Write.insertOutbox row).check db = .ok ()) :
    db.outbox.find row.id = none := by
  simp only [Write.check, requireNew, OutboxMessage.key_eq, require_then_eq_ok, require_eq_ok,
    Option.isNone_iff_eq_none] at valid
  exact valid.2.1

/-- Every row is an old one or has been inserted, and then it is fresh. -/
def Enqueued (done : List Write) (before after : Db) : Prop :=
  ∀ row ∈ after.outbox,
    (row ∈ before.outbox ∧ ∀ new, .insertOutbox new ∈ done → new.id ≠ row.id) ∨
      row.Fresh ∧ .insertOutbox row ∈ done

theorem Enqueued.kept {done : List Write} {before middle after : Db} {write : Write}
    (sofar : Enqueued done before middle) (rows : ∀ row ∈ after.outbox, row ∈ middle.outbox)
    (other : ∀ new, write ≠ .insertOutbox new) : Enqueued (done ++ [write]) before after := by
  intro row member
  rcases sofar row (rows row member) with ⟨old, apart⟩ | ⟨fresh, inserted⟩
  · refine .inl ⟨old, fun new inserted => ?_⟩
    rcases List.mem_append.mp inserted with inserted | last
    · exact apart new inserted
    · exact absurd (List.mem_singleton.mp last).symm (other new)
  · exact .inr ⟨fresh, List.mem_append_left _ inserted⟩

/-- The rows after a transaction that is not a cycle: old ones and fresh ones. -/
theorem enqueued_after (replays : Journal.Replays writes db)
    (all : ∀ write ∈ writes, write.Enqueues) : Enqueued writes db (db.after writes) := by
  refine Journal.Replays.fold (fun db row member => .inl ⟨member, by simp⟩) ?_ replays
  intro done write middle initial sofar valid
  have enqueues : write.Enqueues := all write (initial.subset (by simp))
  cases write with
  | insertOutbox new =>
      intro row member
      rcases Table.mem_insert.mp member with old | ⟨rfl, _⟩
      · have free := insertOutbox_valid valid
        have different : new.id ≠ row.id := by
          intro same
          have taken : middle.outbox.find row.id = some row := Table.find_of_mem old
          rw [same, taken] at free
          cases free
        rcases sofar row old with ⟨inDb, apart⟩ | ⟨fresh, inserted⟩
        · refine .inl ⟨inDb, fun other inserted => ?_⟩
          rcases List.mem_append.mp inserted with inserted | last
          · exact apart other inserted
          · cases List.mem_singleton.mp last
            exact different
        · exact .inr ⟨fresh, List.mem_append_left _ inserted⟩
      · exact .inr ⟨enqueues, by simp⟩
  | updateOutbox loaded current => exact enqueues.elim
  | deleteOutbox ids =>
      exact sofar.kept (fun row member => (Table.mem_remove.mp member).1) (by simp)
  | _ => exact sofar.kept (fun row member => member) (by simp)

theorem enqueued_find (all : ∀ write ∈ writes, write.Enqueues) {row : OutboxMessage}
    (found : db.outbox.find row.id = some row) :
    (db.after writes).outbox.find row.id = some row ∨
      ∃ ids, .deleteOutbox ids ∈ writes ∧ row.id ∈ ids := by
  induction writes generalizing db with
  | nil => exact .inl found
  | cons write rest inductionHypothesis =>
      have restAll : ∀ other ∈ rest, other.Enqueues := fun other member =>
        all other (List.mem_cons_of_mem _ member)
      have later : (write.apply db).outbox.find row.id = some row →
          (db.after (write :: rest)).outbox.find row.id = some row ∨
            ∃ ids, .deleteOutbox ids ∈ write :: rest ∧ row.id ∈ ids := by
        intro still
        rcases inductionHypothesis restAll still with found | ⟨ids, member, inside⟩
        · exact .inl found
        · exact .inr ⟨ids, List.mem_cons_of_mem _ member, inside⟩
      have enqueues := all write List.mem_cons_self
      cases write with
      | insertOutbox new =>
          apply later
          change (db.outbox.insert new).find row.id = some row
          rw [Table.find_insert, found]
          split <;> rfl
      | updateOutbox loaded current => exact enqueues.elim
      | deleteOutbox ids =>
          by_cases inside : row.id ∈ ids
          · exact .inr ⟨ids, List.mem_cons_self, inside⟩
          · apply later
            change (db.outbox.remove ids).find row.id = some row
            rw [Table.find_remove_other inside]
            exact found
      | _ => exact later found

end Others

/-! ### Dead letters and their alerts -/

/-- A dead letter of the company. -/
def OutboxMessage.deadFor (companyId : Uuid) (row : OutboxMessage) : Bool :=
  row.companyId = companyId && row.deadLetteredAt.isSome

/-- A critical alert of the company about a dead letter. -/
def SystemAlert.undeliverableFor (companyId : Uuid) (row : SystemAlert) : Bool :=
  row.companyId = companyId && row.severity = .critical && row.code = undeliverableCode

def Db.deadLetters (db : Db) (companyId : Uuid) : Nat :=
  db.outbox.rows.countP (OutboxMessage.deadFor companyId)

def Db.undeliverables (db : Db) (companyId : Uuid) : Nat :=
  db.alerts.rows.countP (SystemAlert.undeliverableFor companyId)

def Write.turns (counted : OutboxMessage → Bool) : Write → Bool
  | .updateOutbox loaded current => counted (OutboxMessage.changed loaded current loaded)
  | _ => false

def Write.buries (companyId : Uuid) : Write → Bool
  | .updateOutbox loaded current => OutboxMessage.deadFor companyId
      (OutboxMessage.changed loaded current loaded)
  | _ => false

def Write.raises (companyId : Uuid) : Write → Bool
  | .insertAlert row => row.undeliverableFor companyId
  | _ => false

section Counts

variable {writes : List Write} {db : Db} {companyId : Uuid}

theorem insertAlert_valid {row : SystemAlert} (valid : (Write.insertAlert row).check db = .ok ()) :
    db.alerts.find row.id = none := by
  simp only [Write.check, requireNew, SystemAlert.key_eq, require_then_eq_ok, require_eq_ok,
    Option.isNone_iff_eq_none] at valid
  exact valid.2

theorem undeliverables_after (replays : Journal.Replays writes db) :
    (db.after writes).undeliverables companyId =
      db.undeliverables companyId + writes.countP (Write.raises companyId) := by
  induction writes generalizing db with
  | nil => rfl
  | cons write rest inductionHypothesis =>
      have valid : write.check db = .ok () := replays.1
      have later : Journal.Replays rest (write.apply db) := replays.2
      rw [Db.after_cons, inductionHypothesis later, List.countP_cons]
      cases write with
      | insertAlert row =>
          have inserted : (db.alerts.insert row).rows = db.alerts.rows ++ [row] :=
            Table.insert_rows (insertAlert_valid valid)
          change (db.alerts.insert row).rows.countP _ + _ = db.alerts.rows.countP _ + _
          rw [inserted, List.countP_append, List.countP_singleton, Nat.add_assoc,
            Nat.add_comm (List.countP (Write.raises companyId) rest)]
          rfl
      | _ =>
          change db.undeliverables companyId + _ = _
          simp [Write.raises]

theorem counted_after {rows : List OutboxMessage} {counted : OutboxMessage → Bool}
    (all : ∀ write ∈ writes, RelayWrite rows write)
    (once : (writes.filterMap Write.updates).Nodup)
    (stored : ∀ loaded current, .updateOutbox loaded current ∈ writes →
      db.outbox.find loaded.id = some loaded ∧ counted loaded = false) :
    (db.after writes).outbox.rows.countP counted =
      db.outbox.rows.countP counted + writes.countP (Write.turns counted) := by
  induction writes generalizing db with
  | nil => rfl
  | cons write rest inductionHypothesis =>
      have restAll : ∀ other ∈ rest, RelayWrite rows other := fun other member =>
        all other (List.mem_cons_of_mem _ member)
      rw [Db.after_cons, List.countP_cons]
      cases all write List.mem_cons_self with
      | alert row isCode =>
          have restStored : ∀ loaded current, .updateOutbox loaded current ∈ rest →
              ((Write.insertAlert row).apply db).outbox.find loaded.id = some loaded ∧
                counted loaded = false :=
            fun loaded current member => stored loaded current (List.mem_cons_of_mem _ member)
          rw [inductionHypothesis restAll once restStored]
          change db.outbox.rows.countP counted + _ = _
          simp [Write.turns]
      | update own current member =>
          have once : (own.id :: rest.filterMap Write.updates).Nodup := once
          obtain ⟨notAgain, restOnce⟩ := List.nodup_cons.mp once
          obtain ⟨found, notCounted⟩ := stored own current List.mem_cons_self
          have restStored : ∀ loaded later, .updateOutbox loaded later ∈ rest →
              ((Write.updateOutbox own current).apply db).outbox.find loaded.id = some loaded ∧
                counted loaded = false := by
            intro loaded later inRest
            have different : own.id ≠ loaded.id := by
              intro same
              exact notAgain (same ▸ List.mem_filterMap.mpr ⟨_, inRest, rfl⟩)
            obtain ⟨isStored, notLoaded⟩ := stored loaded later (List.mem_cons_of_mem _ inRest)
            exact ⟨(Table.find_update_other (by simp) different).trans isStored, notLoaded⟩
          rw [inductionHypothesis restAll restOnce restStored]
          have keeps : ∀ row, Keyed.key (OutboxMessage.changed own current row) =
              Keyed.key row := by
            simp
          have added := Table.countP_update keeps found counted
          change (db.outbox.update own.id (OutboxMessage.changed own current)).rows.countP _ + _ =
            db.outbox.rows.countP _ + _
          rw [notCounted, if_neg Bool.false_ne_true, Nat.add_zero] at added
          rw [added, Nat.add_right_comm, Nat.add_assoc]
          rfl

theorem buries_eq : Write.buries companyId = Write.turns (OutboxMessage.deadFor companyId) := by
  funext write
  cases write <;> rfl

theorem undeliverableAlert_for (id : Uuid) (row : OutboxMessage) (attempts : Nat) :
    (undeliverableAlert id row attempts).undeliverableFor companyId =
      decide (row.companyId = companyId) := by
  have isCode : (undeliverableAlert id row attempts).code = undeliverableCode := rfl
  rw [SystemAlert.undeliverableFor, isCode]
  simp [undeliverableAlert]

/-- A cycle raises one alert for each row it buries. -/
theorem Relays.balanced {rows : List OutboxMessage} {entries : List Sent}
    (relays : Relays rows entries writes)
    (alive : ∀ row ∈ rows, row.deadLetteredAt = none) :
    writes.countP (Write.buries companyId) = writes.countP (Write.raises companyId) := by
  induction relays with
  | nil => rfl
  | @cons row rows entries more writes rest first others inductionHypothesis =>
      have notDead := alive row List.mem_cons_self
      rw [List.countP_append, List.countP_append,
        inductionHypothesis fun other member => alive other (List.mem_cons_of_mem _ member)]
      congr 1
      cases first with
      | delivered send now asked timed messageId outcome =>
          simp [Write.buries, Write.raises, OutboxMessage.deadFor, OutboxMessage.changed, notDead]
      | refused send now asked timed error outcome delay inRange =>
          simp [Write.buries, Write.raises, OutboxMessage.deadFor, OutboxMessage.changed,
            OutboxMessage.failed, notDead]
      | exhausted send now alert asked timed drawn error outcome spent =>
          simp [Write.buries, Write.raises, OutboxMessage.deadFor, OutboxMessage.changed,
            OutboxMessage.failed, undeliverableAlert_for, List.countP_cons]

theorem counted_others {counted : OutboxMessage → Bool}
    (replays : Journal.Replays writes db) (all : ∀ write ∈ writes, write.Enqueues)
    (keeps : ∀ ids, .deleteOutbox ids ∈ writes → ids = [])
    (freshRows : ∀ row : OutboxMessage, row.Fresh → counted row = false) :
    (db.after writes).outbox.rows.countP counted = db.outbox.rows.countP counted := by
  induction writes generalizing db with
  | nil => rfl
  | cons write rest inductionHypothesis =>
      have restAll : ∀ other ∈ rest, other.Enqueues := fun other member =>
        all other (List.mem_cons_of_mem _ member)
      have restKeeps : ∀ ids, .deleteOutbox ids ∈ rest → ids = [] := fun ids member =>
        keeps ids (List.mem_cons_of_mem _ member)
      have valid : write.check db = .ok () := replays.1
      have later : Journal.Replays rest (write.apply db) := replays.2
      rw [Db.after_cons, inductionHypothesis later restAll restKeeps]
      have enqueues := all write List.mem_cons_self
      cases write with
      | insertOutbox row =>
          have inserted : (db.outbox.insert row).rows = db.outbox.rows ++ [row] :=
            Table.insert_rows (insertOutbox_valid valid)
          change (db.outbox.insert row).rows.countP _ = db.outbox.rows.countP _
          rw [inserted, List.countP_append, List.countP_singleton, freshRows row enqueues]
          rfl
      | updateOutbox loaded current => exact enqueues.elim
      | deleteOutbox ids =>
          rw [keeps ids List.mem_cons_self]
          change (db.outbox.remove []).rows.countP _ = db.outbox.rows.countP _
          simp [Table.remove]
      | _ => rfl

theorem deadLetters_others (replays : Journal.Replays writes db)
    (all : ∀ write ∈ writes, write.Enqueues)
    (keeps : ∀ ids, .deleteOutbox ids ∈ writes → ids = []) :
    (db.after writes).deadLetters companyId = db.deadLetters companyId :=
  counted_others replays all keeps fun row fresh => by
    simp [OutboxMessage.deadFor, fresh.deadLetteredAt]

theorem raises_others (all : ∀ write ∈ writes, write.Enqueues) :
    writes.countP (Write.raises companyId) = 0 := by
  rw [List.countP_eq_zero]
  intro write member
  have enqueues := all write member
  cases write with
  | insertAlert row =>
      have other : row.code ≠ undeliverableCode := enqueues
      simp [Write.raises, SystemAlert.undeliverableFor, other]
  | _ => simp [Write.raises]

end Counts

/-! ### Whole runs -/

/-- Nothing is asked of the world. -/
theorem anyDiscipline (sha256 : Str → Str) (validateKennzeichen : Str → Option Str)
    (policy : Policy World Memory Connection Statement Env Request) :
    Discipline (system sha256 validateKennzeichen) policy readCommitted (fun _ => True)
      fun _ _ => True where
  refl _ := trivial
  trans _ _ := trivial
  advance _ _ := ⟨trivial, trivial⟩
  commit _ := ⟨trivial, trivial⟩

/-- As long as no rows are deleted, every dead letter has its alert. -/
def Balanced (db : Db) (history : List Done) : Prop :=
  (∀ done ∈ history, done.isCommitted → ∀ id, done.deletes id = false) →
    ∀ companyId, db.deadLetters companyId = db.undeliverables companyId

/-- What a history says about the outbox. -/
structure Told (world : World) (history : List Done) : Prop where
  tracked : ∀ row ∈ world.db.outbox, row.Tracked history
  balanced : Balanced world.db history

section Runs

variable {sha256 : Str → Str} {validateKennzeichen : Str → Option Str}
variable {policy : Policy World Memory Connection Statement Env Request}
variable {Inv : World → Prop} {Later : World → World → Prop}
variable {history : List Done} {done : Done}

theorem Told.aborted (told : Told done.world history) (notCommitted : done.isCommitted = false) :
    Told done.world (history ++ [done]) where
  tracked row member := (told.tracked row member).append (by
    rw [failedSends_append]
    simp [notCommitted])
  balanced keeps := told.balanced fun other member =>
    keeps other (List.mem_append_left _ member)

theorem Cycle.counted {result : Outcome} (cycle : Cycle done (.ok result)) {entries : List Sent}
    {writes : List Write} (relays : Relays done.batch entries writes)
    {counted : OutboxMessage → Bool}
    (waiting : ∀ row : OutboxMessage, row.sentAt = none → row.deadLetteredAt = none →
      counted row = false) :
    (done.world.db.after (unitOfWork writes)).outbox.rows.countP counted =
      done.world.db.outbox.rows.countP counted + writes.countP (Write.turns counted) := by
  have all : ∀ write ∈ unitOfWork writes, RelayWrite done.batch write := fun write member =>
    relays.write write (mem_unitOfWork.mp member)
  have sorted : (unitOfWork writes).Perm writes := List.perm_insertionSort _ writes
  have once : ((unitOfWork writes).filterMap Write.updates).Nodup :=
    relays.flushed.nodup_iff.mpr cycle.once
  rw [← sorted.countP_eq]
  refine counted_after all once fun loaded current member => ?_
  cases all _ member with
  | update _ _ inBatch =>
      obtain ⟨now, due⟩ := cycle.due loaded inBatch
      obtain ⟨notSent, notDead⟩ := isDue_open due
      exact ⟨cycle.stored loaded inBatch, waiting loaded notSent notDead⟩

theorem Told.cycle (told : Told done.world history) {result : Outcome}
    (cycle : Cycle done (.ok result)) (isCommitted : done.isCommitted = true)
    (isCycle : done.isCycle = true)
    (ready : Journal.Replays (Session.writes done.transaction) done.world.db) :
    Told { done.world with db := done.result } (history ++ [done]) := by
  obtain ⟨_, handled, others⟩ := cycle.handles
  constructor
  · intro row member
    have found : done.result.outbox.find row.id = some row := Table.find_of_mem member
    by_cases inBatch : row.id ∈ done.batch.map OutboxMessage.id
    · obtain ⟨claimed, claimedIn, same⟩ := List.mem_map.mp inBatch
      obtain ⟨delivery, current, handles, sent, isStored⟩ := handled claimed claimedIn
      have isCurrent : current = row := by
        rw [same, found] at isStored
        exact (Option.some.inj isStored).symm
      obtain ⟨now, due⟩ := cycle.due claimed claimedIn
      have tracked := told.tracked claimed (Table.mem_of_find (cycle.stored claimed claimedIn))
      exact isCurrent ▸ handles.tracked tracked due isCommitted isCycle sent (cycle.failures sent)
    · have old : done.world.db.outbox.find row.id = some row := (others row.id inBatch) ▸ found
      refine (told.tracked row (Table.mem_of_find old)).append ?_
      rw [failedSends_append]
      simp [isCommitted, isCycle, cycle.noFailures inBatch]
  · intro keeps companyId
    have before := told.balanced
      (fun other member => keeps other (List.mem_append_left _ member)) companyId
    cases cycle.ends with
    | committed entries writes relays sent deliveries whole =>
        have alive : ∀ row ∈ done.batch, row.deadLetteredAt = none := by
          intro row member
          obtain ⟨now, due⟩ := cycle.due row member
          exact (isDue_open due).2
        have buried : (done.world.db.after (unitOfWork writes)).deadLetters companyId =
            done.world.db.deadLetters companyId + writes.countP (Write.buries companyId) := by
          rw [buries_eq]
          exact cycle.counted relays fun row _ notDead => by simp [OutboxMessage.deadFor, notDead]
        have sorted : (unitOfWork writes).Perm writes := List.perm_insertionSort _ writes
        rw [whole] at ready
        change (done.world.db.after _).deadLetters companyId =
          (done.world.db.after _).undeliverables companyId
        rw [whole, buried, undeliverables_after ready, before, sorted.countP_eq,
          relays.balanced alive]

theorem deletes_nothing (keeps : ∀ id, done.deletes id = false) :
    ∀ ids, .deleteOutbox ids ∈ Session.writes done.transaction → ids = [] := by
  intro ids member
  by_contra some
  obtain ⟨id, inside⟩ := List.exists_mem_of_ne_nil ids some
  have kept := keeps id
  rw [Done.deletes, List.any_eq_false] at kept
  exact kept _ member (by simpa using inside)

theorem Told.other (told : Told done.world history) (isCommitted : done.isCommitted = true)
    (isCycle : done.isCycle = false)
    (all : ∀ write ∈ Session.writes done.transaction, write.Enqueues)
    (ready : Journal.Replays (Session.writes done.transaction) done.world.db) :
    Told { done.world with db := done.result } (history ++ [done]) := by
  constructor
  · intro row member
    rcases enqueued_after ready all row member with ⟨old, apart⟩ | ⟨fresh, inserted⟩
    · refine (told.tracked row old).append ?_
      have notEnqueued : done.enqueues row.id = false := by
        rw [Done.enqueues, List.any_eq_false]
        intro write inside
        cases write with
        | insertOutbox new => simpa using apart new inside
        | _ => simp
      rw [failedSends_append]
      simp [isCommitted, isCycle, notEnqueued]
    · have enqueued : done.enqueues row.id = true := by
        rw [Done.enqueues, List.any_eq_true]
        exact ⟨_, inserted, by simp⟩
      refine fresh.tracked ?_
      rw [failedSends_append]
      simp [isCommitted, isCycle, enqueued]
  · intro keeps companyId
    have before := told.balanced
      (fun other member => keeps other (List.mem_append_left _ member)) companyId
    have deletesNothing := deletes_nothing (keeps done (by simp) isCommitted)
    change (done.world.db.after _).deadLetters companyId =
      (done.world.db.after _).undeliverables companyId
    rw [deadLetters_others ready all deletesNothing, undeliverables_after ready,
      raises_others all, before, Nat.add_zero]

theorem Over.committed_cases
    (concluded : Over (system sha256 validateKennzeichen) policy readCommitted Inv Later done.world
      done) (isCommitted : done.isCommitted = true) :
    ((system sha256 validateKennzeichen).leave done = { done.world with db := done.result }) ∧
      Journal.Replays (Session.writes done.transaction) done.world.db ∧
      ((done.isCycle = true ∧ ∃ result, Cycle done (.ok result)) ∨
        (done.isCycle = false ∧ ∀ write ∈ Session.writes done.transaction, write.Enqueues)) := by
  obtain ⟨_, _, start, _, _, chain, ends, _⟩ := concluded
  cases outcome : done.outcome with
  | none => simp [Done.isCommitted, outcome] at isCommitted
  | some outcome' =>
      cases outcome' with
      | error error => simp [Done.isCommitted, outcome] at isCommitted
      | ok result =>
          refine ⟨by rw [Engine.leave, outcome]; rfl, chain.ready, ?_⟩
          cases isCycle : done.isCycle with
          | true =>
              exact .inl ⟨rfl, result,
                cycle_of_chain chain (ends _ outcome) (Done.isCycle_iff.mp isCycle)⟩
          | false =>
              have other : done.request ≠ .relayOutbox := fun relay => by
                rw [Done.isCycle_iff.mpr relay] at isCycle
                cases isCycle
              have only := request_enqueues other (ends _ outcome)
              exact .inr ⟨rfl, only.writes⟩

theorem Told.leave
    (concluded : Over (system sha256 validateKennzeichen) policy readCommitted Inv Later done.world
      done) (told : Told done.world history) :
    Told ((system sha256 validateKennzeichen).leave done) (history ++ [done]) := by
  cases isCommitted : done.isCommitted with
  | false =>
      rw [leave_uncommitted isCommitted]
      exact told.aborted isCommitted
  | true =>
      obtain ⟨left, ready, ⟨isCycle, result, cycle⟩ | ⟨isCycle, all⟩⟩ :=
        Over.committed_cases concluded isCommitted
      · rw [left]
        exact told.cycle cycle isCommitted isCycle ready
      · rw [left]
        exact told.other isCommitted isCycle all ready

/-- The row is as it was, or a transaction has deleted it since. -/
def KeptSince (row : OutboxMessage) (past : List Done) (world : World) (history : List Done) :
    Prop :=
  ∃ more, history = past ++ more ∧
    (world.db.outbox.find row.id = some row ∨
      ∃ done ∈ more, Done.isCommitted done ∧ Done.deletes done row.id)

theorem KeptSince.leave {row : OutboxMessage} {past : List Done} (closed : row.Closed)
    (concluded : Over (system sha256 validateKennzeichen) policy readCommitted Inv Later done.world
      done) (kept : KeptSince row past done.world history) :
    KeptSince row past ((system sha256 validateKennzeichen).leave done) (history ++ [done]) := by
  obtain ⟨more, whole, found | ⟨other, inMore, deleted⟩⟩ := kept
  swap
  · exact ⟨more ++ [done], by simp [whole], .inr ⟨other, List.mem_append_left _ inMore, deleted⟩⟩
  refine ⟨more ++ [done], by simp [whole], ?_⟩
  cases isCommitted : done.isCommitted with
  | false =>
      rw [leave_uncommitted isCommitted]
      exact .inl found
  | true =>
      obtain ⟨left, ready, ⟨isCycle, result, cycle⟩ | ⟨isCycle, all⟩⟩ :=
        Over.committed_cases concluded isCommitted
      · have outside : row.id ∉ done.batch.map OutboxMessage.id := by
          intro inside
          obtain ⟨claimed, claimedIn, same⟩ := List.mem_map.mp inside
          have isRow : claimed = row := by
            have stored := cycle.stored claimed claimedIn
            rw [same, found] at stored
            exact (Option.some.inj stored).symm
          obtain ⟨now, due⟩ := cycle.due claimed claimedIn
          obtain ⟨notSent, notDead⟩ := isDue_open due
          rw [isRow] at notSent notDead
          rcases closed with isSent | isDead
          · simp [notSent] at isSent
          · simp [notDead] at isDead
        rw [left]
        exact .inl ((cycle.handles.2.2 row.id outside).trans found)
      · rw [left]
        rcases enqueued_find all found with still | ⟨ids, deletes, inside⟩
        · exact .inl still
        · refine .inr ⟨done, by simp, isCommitted, ?_⟩
          rw [Done.deletes, List.any_eq_true]
          exact ⟨_, deletes, by simpa using inside⟩

/-- No claim takes a delivered or dead row. -/
theorem claims_open (entry : Sent) :
    ∀ row ∈ Sent.claims entry, row ∈ (Sent.db entry).outbox ∧ ¬ row.Closed := by
  intro row member
  unfold Sent.claims at member
  split at member
  · obtain ⟨stored, due⟩ := dueMessages_sublist entry _ _ row member
    obtain ⟨notSent, notDead⟩ := isDue_open due
    refine ⟨stored, fun closed => ?_⟩
    rcases closed with isSent | isDead
    · simp [notSent] at isSent
    · simp [notDead] at isDead
  · cases member

theorem require_then_error {condition : Bool} {error other : Error} {rest : Except Error Unit}
    (failed : (do require condition error; rest) = .error other) :
    other = error ∨ rest = .error other := by
  cases condition with
  | false =>
      left
      cases failed
      rfl
  | true => exact .inr failed

theorem require_error {condition : Bool} {error other : Error}
    (failed : require condition error = .error other) : other = error := by
  cases condition with
  | false =>
      cases failed
      rfl
  | true => cases failed

theorem relayWrite_check {rows : List OutboxMessage} {write : Write} {db : Db}
    (relay : RelayWrite rows write) : write.check db ≠ .error .index := by
  intro failed
  cases relay with
  | update loaded current member =>
      rcases require_then_error failed with same | failed
      · cases same
      · cases require_error failed
  | alert row isCode =>
      rcases require_then_error failed with same | failed
      · cases same
      · cases require_error failed

/-- `BACKOFF[row.attempts]` is in range. -/
theorem Cycle.inRange {outcome : Except Error Outcome} (cycle : Cycle done outcome) :
    outcome ≠ .error .index := by
  cases cycle.ends with
  | committed entries writes relays sent deliveries whole => simp
  | crashed row send member sent asked isCrash => simp
  | refused entries writes write entry error relays sent member asked inTrace failed stored =>
      intro same
      cases same
      exact relayWrite_check (relays.write write member) failed

variable (sha256 : Str → Str) (validateKennzeichen : Str → Option Str)

/-- **The outbox state machine.** In every state that any interleaving of relay cycles
with all other transactions reaches, the columns of every row say what its history says,
closed rows stay and are not claimed, dead letters and their alerts are in balance, and
the back-off table is long enough. -/
theorem outbox_state_machine {world : World} (fresh : ∀ row ∈ world.db.outbox, row.Fresh)
    (quiet : ∀ alert ∈ world.db.alerts, alert.code ≠ undeliverableCode)
    {middle config : Config World Memory Connection Statement Answer Env Error Request Outcome}
    (before : Reachable (system sha256 validateKennzeichen) .unrestricted ⟨world, [], []⟩ middle)
    (later : Reachable (system sha256 validateKennzeichen) .unrestricted middle config) :
    (∀ row ∈ config.world.db.outbox, row.Tracked config.ended) ∧
      (∀ row ∈ middle.world.db.outbox, row.Closed →
        KeptSince row middle.ended config.world config.ended) ∧
      (∀ transaction ∈ config.running.map (·.transaction) ++ config.ended.map (·.transaction),
        ∀ entry ∈ transaction.trace, ∀ row ∈ Sent.claims entry,
          row ∈ (Sent.db entry).outbox ∧ ¬ row.Closed) ∧
      Balanced config.world.db config.ended ∧
      ∀ done ∈ config.ended, done.request = .relayOutbox → done.outcome ≠ some (.error .index) := by
  have laws := system_laws sha256 validateKennzeichen
  have discipline := anyDiscipline sha256 validateKennzeichen .unrestricted
  have quietSound : Sound (system sha256 validateKennzeichen) .unrestricted readCommitted
      (fun _ => True) (fun _ _ => True) ⟨world, [], []⟩ := .quiet trivial
  have reached := before.trans later
  have initially : Told world [] := by
    refine ⟨fun row member => (fresh row member).tracked rfl, fun _ companyId => ?_⟩
    have noDead : world.db.deadLetters companyId = 0 := by
      rw [Db.deadLetters, List.countP_eq_zero]
      intro row member
      simp [OutboxMessage.deadFor, (fresh row member).deadLetteredAt]
    have noAlerts : world.db.undeliverables companyId = 0 := by
      rw [Db.undeliverables, List.countP_eq_zero]
      intro alert member
      simp [SystemAlert.undeliverableFor, quiet alert member]
    rw [noDead, noAlerts]
  have told : Told config.world config.ended :=
    Sound.recorded laws discipline (fun _ _ told => ⟨told.tracked, told.balanced⟩)
      (fun concluded told => told.leave concluded) quietSound initially reached
  refine ⟨told.tracked, ?_, fun transaction _ entry _ => claims_open entry, told.balanced, ?_⟩
  · intro row member closed
    have sound := (quietSound.reachable laws discipline before).1
    refine Sound.recorded laws discipline ?_ ?_ sound ?_
      later
    · exact fun _ _ kept => kept
    · exact fun concluded kept => kept.leave closed concluded
    · exact ⟨[], by simp, .inl (Table.find_of_mem member)⟩
  · intro done member isRelay outOfRange
    have sound := (quietSound.reachable laws discipline reached).1
    obtain ⟨_, _, start, _, _, chain, ends, _⟩ := sound.concluded done member
    exact (cycle_of_chain chain (ends _ outOfRange) isRelay : Cycle done _).inRange rfl

end Runs

theorem relayWorld_fresh : ∀ row ∈ relayWorld.db.outbox, row.Fresh := by
  intro row member
  have isMessage : row ∈ [fleetMessage 11, fleetMessage 12] := member
  rcases List.mem_pair.mp isMessage with rfl | rfl <;> exact OutboxMessage.staged_fresh ..

/-- One cycle over two messages. -/
theorem outbox_state_machine_cycle :
    ∃ config, (system id some).schedule ⟨relayWorld, [], []⟩
        (relayRun (.delivered "m2".toList) 14 ++ [.finish 0]) = some config ∧
      ∀ row ∈ config.world.db.outbox, row.Tracked config.ended := by
  obtain ⟨config, ran⟩ := Option.isSome_iff_exists.mp (by decide +kernel :
    ((system id some).schedule ⟨relayWorld, [], []⟩
      (relayRun (.delivered "m2".toList) 14 ++ [.finish 0])).isSome = true)
  exact ⟨config, ran, (outbox_state_machine id some relayWorld_fresh
    (fun _ member => absurd member List.not_mem_nil) (.of_schedule ran) .refl).1⟩

end Fristenwaechter
