import Fristenwaechter.Lockout.Discipline

/-!
Owns one relay cycle that has ended by itself: which rows it had claimed, what it did
with each of them, and when it fails as a whole.
-/

namespace Fristenwaechter

open Library (Chain Ended Journal Policy Table)

variable {session after : Session}

abbrev Done := Ended World Memory Connection Statement Env Error Request Outcome

/-- The rows a statement claims. -/
def Sent.claims (entry : Sent) : List OutboxMessage :=
  match entry.statement with
  | .dueOutbox now limit => entry.dueMessages now limit
  | _ => []

def Done.batch (done : Done) : List OutboxMessage :=
  done.transaction.trace.flatMap Sent.claims

/-- The message a statement sends, and how the send ends. -/
def Sent.delivers (entry : Sent) : Option (OutboxMessage × Delivery) :=
  match entry.statement with
  | .deliver row => some (row, entry.env.delivery)
  | _ => none

def Done.deliveries (done : Done) : List (OutboxMessage × Delivery) :=
  done.transaction.trace.filterMap Sent.delivers

/-! ### Claimed rows -/

theorem dueMessages_sublist (entry : Sent) (now : Instant) (limit : Nat) :
    ∀ row ∈ entry.dueMessages now limit, row ∈ entry.db.outbox ∧ row.isDue now = true := by
  intro row member
  have sorted := List.mem_of_mem_take member
  have due := (List.perm_insertionSort _ _).mem_iff.mp sorted
  obtain ⟨stored, holds⟩ := List.mem_filter.mp due
  simp only [Bool.and_eq_true] at holds
  exact ⟨stored, holds.1.2⟩

theorem dueMessages_nodup (entry : Sent) (now : Instant) (limit : Nat) :
    ((entry.dueMessages now limit).map OutboxMessage.id).Nodup := by
  have stored : (entry.db.outbox.rows.map OutboxMessage.id).Nodup := entry.db.outbox.distinct
  have due : ((entry.db.outbox.rows.filter fun row =>
      entry.connection.sees row.companyId && row.isDue now &&
        !heldByOthers entry.others (.outbox row.id)).map OutboxMessage.id).Nodup :=
    stored.sublist (List.filter_sublist.map _)
  have sorted := ((List.perm_insertionSort (fun first second => queueLe first second)
    (entry.db.outbox.rows.filter fun row => entry.connection.sees row.companyId &&
      row.isDue now && !heldByOthers entry.others (.outbox row.id))).map
        OutboxMessage.id).nodup_iff.mpr due
  exact sorted.sublist ((List.take_sublist _ _).map _)

/-! ### What happens to one row -/

theorem Relays.row {rows : List OutboxMessage} {entries : List Sent} {writes : List Write}
    (relays : Relays rows entries writes) {row : OutboxMessage} (member : row ∈ rows) :
    ∃ own ownWrites, RelaysRow row own ownWrites ∧ own ⊆ entries ∧ ownWrites ⊆ writes := by
  induction relays with
  | nil => cases member
  | @cons first rows entries more writes rest relaysFirst others inductionHypothesis =>
      rcases List.mem_cons.mp member with rfl | member
      · exact ⟨entries, writes, relaysFirst, List.subset_append_left _ _,
          List.subset_append_left _ _⟩
      · obtain ⟨own, ownWrites, relaysRow, inEntries, inWrites⟩ := inductionHypothesis member
        exact ⟨own, ownWrites, relaysRow, fun entry inside =>
          List.mem_append_right _ (inEntries inside), fun write inside =>
          List.mem_append_right _ (inWrites inside)⟩

theorem Relays.updates {rows : List OutboxMessage} {entries : List Sent} {writes : List Write}
    (relays : Relays rows entries writes) :
    writes.filterMap Write.updates = rows.map OutboxMessage.id := by
  induction relays with
  | nil => rfl
  | cons first others inductionHypothesis =>
      rw [List.filterMap_append, inductionHypothesis, List.map_cons]
      cases first <;> rfl

theorem Relays.sends {rows : List OutboxMessage} {entries : List Sent} {writes : List Write}
    (relays : Relays rows entries writes) :
    (entries.filterMap Sent.delivers).map Prod.fst = rows := by
  induction relays with
  | nil => rfl
  | cons first others inductionHypothesis =>
      rw [List.filterMap_append, List.map_append, inductionHypothesis]
      cases first with
      | delivered send now asked timed => simp [Sent.delivers, asked, timed]
      | refused send now asked timed => simp [Sent.delivers, asked, timed]
      | exhausted send now alert asked timed drawn => simp [Sent.delivers, asked, timed, drawn]

/-- An UPDATE of a claimed row, or the alert of a dead letter. -/
inductive RelayWrite (rows : List OutboxMessage) : Write → Prop
  | update (loaded current : OutboxMessage) (member : loaded ∈ rows) :
      RelayWrite rows (.updateOutbox loaded current)
  | alert (row : SystemAlert) (isCode : row.code = "NOTIFICATION_UNDELIVERABLE".toList) :
      RelayWrite rows (.insertAlert row)

theorem Relays.write {rows : List OutboxMessage} {entries : List Sent} {writes : List Write}
    (relays : Relays rows entries writes) : ∀ write ∈ writes, RelayWrite rows write := by
  induction relays with
  | nil => simp
  | @cons row rows entries more writes rest first others inductionHypothesis =>
      intro write member
      rcases List.mem_append.mp member with own | other
      · cases first <;> simp only [List.mem_cons, List.not_mem_nil, or_false] at own
        · exact own ▸ .update row _ List.mem_cons_self
        · exact own ▸ .update row _ List.mem_cons_self
        · rcases own with rfl | rfl
          · exact .update row _ List.mem_cons_self
          · exact .alert _ rfl
      · cases inductionHypothesis write other with
        | update loaded current inside =>
            exact .update loaded current (List.mem_cons_of_mem _ inside)
        | alert row isCode => exact .alert row isCode

theorem Relays.claimsNothing {rows : List OutboxMessage} {entries : List Sent}
    {writes : List Write} (relays : Relays rows entries writes) :
    ∀ entry ∈ entries, Sent.ClaimsNothing entry := by
  induction relays with
  | nil => simp
  | cons first others inductionHypothesis =>
      intro entry member
      rcases List.mem_append.mp member with own | other
      · exact first.claimsNothing entry own
      · exact inductionHypothesis entry other

theorem claims_nil {entries : List Sent} (nothing : ∀ entry ∈ entries, Sent.ClaimsNothing entry) :
    entries.flatMap Sent.claims = [] := by
  rw [List.flatMap_eq_nil_iff]
  intro entry member
  unfold Sent.claims
  split
  · rename_i now limit isClaim
    exact absurd isClaim (nothing entry member now limit)
  · rfl

/-! ### The outbox after a cycle -/

theorem outbox_after_updates {rows : List OutboxMessage} {writes : List Write} (db : Db)
    (all : ∀ write ∈ writes, RelayWrite rows write)
    (once : (writes.filterMap Write.updates).Nodup) (id : Uuid) :
    (id ∉ writes.filterMap Write.updates → (db.after writes).outbox.find id = db.outbox.find id) ∧
      ∀ loaded current, .updateOutbox loaded current ∈ writes → loaded.id = id →
        (db.after writes).outbox.find id =
          (db.outbox.find id).map (OutboxMessage.changed loaded current) := by
  induction writes generalizing db with
  | nil => exact ⟨fun _ => rfl, by simp⟩
  | cons write rest inductionHypothesis =>
      have restAll : ∀ other ∈ rest, RelayWrite rows other := fun other member =>
        all other (List.mem_cons_of_mem _ member)
      rw [Db.after_cons]
      cases all write List.mem_cons_self with
      | alert row isCode =>
          obtain ⟨unchanged, updated⟩ := inductionHypothesis
            ((Write.insertAlert row).apply db) restAll once
          refine ⟨unchanged, fun loaded current member same => ?_⟩
          rcases List.mem_cons.mp member with isFirst | member
          · cases isFirst
          · exact updated loaded current member same
      | update own ownCurrent member =>
          have once : (own.id :: rest.filterMap Write.updates).Nodup := once
          obtain ⟨notAgain, restOnce⟩ := List.nodup_cons.mp once
          obtain ⟨unchanged, updated⟩ := inductionHypothesis
            ((Write.updateOutbox own ownCurrent).apply db) restAll restOnce
          constructor
          · intro outside
            have outside : id ∉ own.id :: rest.filterMap Write.updates := outside
            rw [List.mem_cons, not_or] at outside
            rw [unchanged outside.2]
            exact Table.find_update_other (by simp) (fun same => outside.1 same.symm)
          · intro loaded current member same
            rcases List.mem_cons.mp member with isFirst | member
            · cases isFirst
              rw [unchanged (same ▸ notAgain), ← same]
              exact Table.find_update_same (by simp)
            · have again : id ∈ rest.filterMap Write.updates :=
                List.mem_filterMap.mpr ⟨_, member, by rw [← same]; rfl⟩
              have different : own.id ≠ id := fun same => notAgain (same ▸ again)
              rw [updated loaded current member same]
              exact congrArg _ (Table.find_update_other (by simp) different)

/-! ### A whole cycle -/

theorem Executed.entries {writes : List Write} (executed : Executed writes session after) :
    ∃ more, after.trace = session.trace ++ more ∧
      ∀ entry ∈ more, ∃ write ∈ writes, entry.statement = .execute write := by
  induction writes generalizing session with
  | nil => exact ⟨[], by simp [show after = session from executed], by simp⟩
  | cons write rest inductionHypothesis =>
      obtain ⟨entry, asked, _, remaining⟩ := executed
      obtain ⟨more, whole, all⟩ := inductionHypothesis remaining
      refine ⟨entry :: more, by simp [whole], ?_⟩
      intro other member
      rcases List.mem_cons.mp member with rfl | member
      · exact ⟨write, List.mem_cons_self, asked.statement⟩
      · obtain ⟨own, inside, same⟩ := all other member
        exact ⟨own, List.mem_cons_of_mem _ inside, same⟩

/-- How a cycle over these rows ends. -/
inductive CycleEnds (done : Done) (rows : List OutboxMessage) : Except Error Outcome → Prop
  /-- Every row was sent, and all the bookkeeping is executed. -/
  | committed (entries : List Sent) (writes : List Write) (relays : Relays rows entries writes)
      (sent : entries ⊆ done.transaction.trace)
      (deliveries : done.deliveries = entries.filterMap Sent.delivers)
      (whole : Session.writes done.transaction = unitOfWork writes) :
      CycleEnds done rows (.ok .swept)
  /-- A send has raised another exception. -/
  | crashed (row : OutboxMessage) (send : Sent) (member : row ∈ rows)
      (sent : send ∈ done.transaction.trace) (asked : send.statement = .deliver row)
      (outcome : send.env.delivery = .crashed) : CycleEnds done rows (.error .notifier)
  /-- The database refuses one of the changes. -/
  | refused (entries : List Sent) (writes : List Write) (write : Write) (entry : Sent)
      (error : Error) (relays : Relays rows entries writes)
      (sent : entries ⊆ done.transaction.trace) (member : write ∈ writes)
      (asked : entry.statement = .execute write) (inTrace : entry ∈ done.transaction.trace)
      (failed : write.check entry.db = .error error)
      (stored : ∀ row ∈ rows, (entry.db.outbox.find row.id).isSome) :
      CycleEnds done rows (.error error)

/-- A relay cycle that has ended by itself. -/
structure Cycle (done : Done) (outcome : Except Error Outcome) : Prop where
  due : ∀ row ∈ done.batch, ∃ now, row.isDue now = true
  once : (done.batch.map OutboxMessage.id).Nodup
  /-- Nobody else changes a claimed row. -/
  stored : ∀ row ∈ done.batch, done.world.db.outbox.find row.id = some row
  ends : CycleEnds done done.batch outcome

/-- UPDATEs and alerts remove no row. -/
theorem outbox_keeps {rows : List OutboxMessage} {writes : List Write} (db : Db)
    (all : ∀ write ∈ writes, RelayWrite rows write) {id : Uuid}
    (found : (db.outbox.find id).isSome) : ((db.after writes).outbox.find id).isSome := by
  induction writes generalizing db with
  | nil => exact found
  | cons write rest inductionHypothesis =>
      rw [Db.after_cons]
      apply inductionHypothesis _ fun other member => all other (List.mem_cons_of_mem _ member)
      cases all write List.mem_cons_self with
      | alert row isCode => exact found
      | update own ownCurrent member =>
          change ((db.outbox.update own.id (OutboxMessage.changed own ownCurrent)).find id).isSome
          rw [Table.find_update (by simp)]
          split
          · rw [Option.isSome_map]
            exact found
          · exact found

/-- The session of a cycle after its claim. -/
def claimed (tenant : Option Uuid) (start : Instant) (now claim : Sent) : Session :=
  ((Session.opened tenant start).saw now).locked claim
    ((claim.dueMessages now.env.now batchSize).map fun row => .outbox row.id)

theorem claimed_holds {tenant : Option Uuid} {start : Instant} {now claim : Sent}
    (grown : Grown (claimed tenant start now claim) after) {row : OutboxMessage}
    (member : row ∈ claim.dueMessages now.env.now batchSize) :
    (.outbox row.id, claim.world) ∈ Journal.held Db after.connection.journal := by
  apply Journal.mem_held.mpr
  refine ⟨.lock (.outbox row.id), grown.journal.subset ?_, by simp [Journal.refs]⟩
  simp only [claimed, Session.locked, Connection.lock]
  apply List.mem_append_right
  exact List.mem_map.mpr ⟨.outbox row.id, List.mem_map.mpr ⟨row, member, rfl⟩, rfl⟩

theorem claimed_stored {tenant : Option Uuid} {start : Instant} {now claim : Sent}
    (asked : ((Session.opened tenant start).saw now).Asked (.dueOutbox now.env.now batchSize) claim)
    {row : OutboxMessage} (member : row ∈ claim.dueMessages now.env.now batchSize) :
    claim.world.db.outbox.find row.id = some row := by
  have inDb := (dueMessages_sublist claim _ _ row member).1
  rw [asked.db] at inDb
  exact Table.find_of_mem inDb

theorem claimed_batch {tenant : Option Uuid} {start : Instant} {now claim : Sent}
    (timed : (Session.opened tenant start).Asked .now now)
    (asked : ((Session.opened tenant start).saw now).Asked (.dueOutbox now.env.now batchSize) claim)
    {done : Done} {more : List Sent}
    (whole : done.transaction.trace = (claimed tenant start now claim).trace ++ more)
    (nothing : ∀ entry ∈ more, Sent.ClaimsNothing entry) :
    done.batch = claim.dueMessages now.env.now batchSize := by
  have first : Sent.claims now = [] := by simp [Sent.claims, timed.statement]
  have second : Sent.claims claim = claim.dueMessages now.env.now batchSize := by
    simp [Sent.claims, asked.statement]
  rw [Done.batch, whole, List.flatMap_append, claims_nil nothing]
  simp [claimed, Session.opened, first, second]

theorem cycle_of_ends {done : Done} {start : Instant} {now claim : Sent}
    {outcome : Except Error Outcome}
    (kept : ∀ lock ∈ Journal.held Db done.transaction.connection.journal,
      Kept lock.1 lock.2.db done.world.db)
    (asked : ((Session.opened none start).saw now).Asked (.dueOutbox now.env.now batchSize) claim)
    (isBatch : done.batch = claim.dueMessages now.env.now batchSize)
    (grown : Grown (claimed none start now claim) done.transaction)
    (ends : CycleEnds done done.batch outcome) : Cycle done outcome where
  due row member := ⟨now.env.now, (dueMessages_sublist claim _ _ row (isBatch ▸ member)).2⟩
  once := isBatch ▸ dueMessages_nodup claim _ _
  stored := by
    intro row member
    rw [isBatch] at member
    have unchanged : done.world.db.outbox.find row.id = claim.world.db.outbox.find row.id :=
      kept _ (claimed_holds grown member)
    rw [unchanged]
    exact claimed_stored asked member
  ends := ends

/-- A cycle whose bookkeeping is executed has sent every claimed row. -/
theorem cycle_committed {done : Done} {start : Instant} {middle : Session}
    (ran : postgres.Ends relayOutbox (Session.opened none start) (.ok ()) middle)
    (executed : Executed (unitOfWork middle.memory.pending) (middle.withPending [])
      done.transaction) :
    ∃ clock claim, (Session.opened none start).Asked .now clock ∧
      ((Session.opened none start).saw clock).Asked
        (.dueOutbox clock.env.now batchSize) claim ∧
      done.batch = claim.dueMessages clock.env.now batchSize ∧
      Grown (claimed none start clock claim) done.transaction ∧
      CycleEnds done done.batch (.ok .swept) := by
  obtain ⟨clock, claim, timed, asked, ⟨entries, writes, _, relays, isMiddle⟩ | ⟨same, _⟩⟩ :=
    relayOutbox_ends rfl ran
  swap
  · cases same
  obtain ⟨executes, whole, all⟩ := executed.entries
  have trace : done.transaction.trace =
      (claimed none start clock claim).trace ++ (entries ++ executes) := by
    simp [whole, isMiddle, claimed]
  have nothing : ∀ entry ∈ entries ++ executes, Sent.ClaimsNothing entry := by
    intro entry member now limit
    rcases List.mem_append.mp member with own | other
    · exact relays.claimsNothing entry own now limit
    · obtain ⟨write, _, isExecute⟩ := all entry other
      simp [isExecute]
  have isBatch := claimed_batch timed asked trace nothing
  have grown : Grown (claimed none start clock claim) done.transaction := by
    refine Grown.trans ?_ executed.grown
    rw [isMiddle]
    exact ((Grown.sawAll _ entries).trans (.withMemory _ _)).trans (.withMemory _ _)
  refine ⟨clock, claim, timed, asked, isBatch, grown,
    .committed entries writes (isBatch ▸ relays) ?_ ?_ ?_⟩
  · intro entry member
    rw [trace]
    simp [member]
  · have silent : executes.filterMap Sent.delivers = [] := by
      rw [List.filterMap_eq_nil_iff]
      intro entry member
      obtain ⟨write, _, isExecute⟩ := all entry member
      simp [Sent.delivers, isExecute]
    have first : Sent.delivers clock = none := by simp [Sent.delivers, timed.statement]
    have second : Sent.delivers claim = none := by simp [Sent.delivers, asked.statement]
    rw [Done.deliveries, trace, List.filterMap_append, List.filterMap_append, silent,
      List.append_nil]
    simp [claimed, Session.opened, first, second]
  · rw [executed.writes, isMiddle]
    simp

section Ends

variable {sha256 : Str → Str} {validateKennzeichen : Str → Option Str}
variable {policy : Policy World Memory Connection Statement Env Request}
variable {Inv : World → Prop} {Later : World → World → Prop}

theorem relayOutbox_ran {done : Done} {start : World} {result : Outcome}
    (ended : (system sha256 validateKennzeichen).Ends
      ((system sha256 validateKennzeichen).program done.request)
      ((system sha256 validateKennzeichen).opening start done.request) (.ok result)
      done.transaction)
    (isRelay : done.request = .relayOutbox) :
    ∃ middle : Session,
      postgres.Ends relayOutbox (Session.opened none start.clock) (.ok ()) middle ∧
      Executed (unitOfWork middle.memory.pending) (middle.withPending []) done.transaction := by
  rw [isRelay] at ended
  have ends : postgres.Ends (transaction (Request.relayOutbox.body sha256 validateKennzeichen))
      (Session.opened none start.clock) (.ok result) done.transaction := ended
  rcases transaction_ends ends with ⟨_, middle, _, body, executed⟩ | ⟨_, same, _⟩
  · rcases ends_return.mp body with ⟨⟨⟩, _, ran⟩ | ⟨_, same, _⟩
    · exact ⟨middle, ran, executed⟩
    · cases same
  · cases same

theorem cycle_of_chain {done : Done} {start : World} {outcome : Except Error Outcome}
    (chain : Chain (system sha256 validateKennzeichen) policy readCommitted Inv Later done.request
      start done.transaction done.world)
    (ended : (system sha256 validateKennzeichen).Ends
      ((system sha256 validateKennzeichen).program done.request)
      ((system sha256 validateKennzeichen).opening start done.request) outcome done.transaction)
    (isRelay : done.request = .relayOutbox) : Cycle done outcome := by
  rw [isRelay] at ended
  have ends : postgres.Ends (transaction (Request.relayOutbox.body sha256 validateKennzeichen))
      (Session.opened none start.clock) outcome done.transaction := ended
  rcases transaction_ends ends with ⟨result, middle, rfl, body, executed⟩ |
    ⟨error, rfl, body | ⟨result, middle, body, refused⟩⟩
  · rcases ends_return.mp body with ⟨⟨⟩, same, ran⟩ | ⟨_, same, _⟩
    · cases same
      obtain ⟨clock, claim, _, asked, isBatch, grown, ends⟩ := cycle_committed ran executed
      exact cycle_of_ends chain.kept asked isBatch grown ends
    · cases same
  · rcases ends_return.mp body with ⟨_, same, _⟩ | ⟨_, same, ran⟩
    · cases same
    · cases same
      obtain ⟨clock, claim, timed, asked, ⟨_, _, same, _⟩ | ⟨same, crashes⟩⟩ :=
        relayOutbox_ends rfl ran
      · cases same
      · cases same
        obtain ⟨more, whole, nothing⟩ := crashes.claimsNothing
        have isBatch := claimed_batch timed asked whole nothing
        obtain ⟨row, member, send, sent, isSend, crashed⟩ := crashes.sent
        exact cycle_of_ends chain.kept asked isBatch crashes.grown
          (.crashed row send (isBatch ▸ member) sent isSend crashed)
  · rcases ends_return.mp body with ⟨⟨⟩, same, ran⟩ | ⟨_, same, _⟩
    · obtain ⟨clock, claim, timed, asked, ⟨entries, writes, _, relays, isMiddle⟩ | ⟨same, _⟩⟩ :=
        relayOutbox_ends rfl ran
      · obtain ⟨first, write, rest, before, entry, split, executed, isWrite, failed, isAfter⟩ :=
          refused
        have isPending : unitOfWork middle.memory.pending = unitOfWork writes := by
          rw [isMiddle]
          simp
        have inWrites : ∀ other ∈ first ++ write :: rest, other ∈ writes := by
          intro other member
          rw [← split, isPending] at member
          exact mem_unitOfWork.mp member
        obtain ⟨executes, whole, all⟩ := executed.entries
        have trace : done.transaction.trace =
            (claimed none start.clock clock claim).trace ++ (entries ++ executes ++ [entry]) := by
          simp [isAfter, whole, isMiddle, claimed]
        have nothing : ∀ other ∈ entries ++ executes ++ [entry], Sent.ClaimsNothing other := by
          intro other member now limit
          rcases List.mem_append.mp member with member | last
          · rcases List.mem_append.mp member with own | member
            · exact relays.claimsNothing other own now limit
            · obtain ⟨write, _, isExecute⟩ := all other member
              simp [isExecute]
          · simp [List.mem_singleton.mp last, isWrite.statement]
        have isBatch := claimed_batch timed asked trace nothing
        have grownBefore : Grown (claimed none start.clock clock claim) before := by
          refine Grown.trans ?_ executed.grown
          rw [isMiddle]
          exact ((Grown.sawAll _ entries).trans (.withMemory _ _)).trans (.withMemory _ _)
        refine cycle_of_ends chain.kept asked isBatch
          (isAfter ▸ grownBefore.trans (.saw before entry))
          (.refused entries writes write entry error (isBatch ▸ relays) ?_
            (inWrites write (by simp)) isWrite.statement (by simp [trace]) failed ?_)
        · intro other member
          rw [trace]
          simp [member]
        · intro row member
          rw [isBatch] at member
          have unchanged :
              entry.world.db.outbox.find row.id = claim.world.db.outbox.find row.id := by
            refine chain.keptSeen entry (by simp [trace]) (.outbox row.id, claim.world) ?_
            rw [isWrite.connection]
            exact claimed_holds grownBefore member
          have all : ∀ other ∈ before.writes,
              RelayWrite (claim.dueMessages clock.env.now batchSize) other := by
            intro other inBefore
            rw [executed.writes, isMiddle] at inBefore
            have inFirst : other ∈ first := by simpa using inBefore
            exact relays.write other (inWrites other (List.mem_append_left _ inFirst))
          rw [isWrite.db]
          apply outbox_keeps _ all
          rw [unchanged, claimed_stored asked member]
          rfl
      · cases same
    · cases same

end Ends

/-! ### Handled rows -/

/-- What becomes of a claimed row. -/
inductive Handles (row : OutboxMessage) : Delivery → OutboxMessage → Prop
  | delivered (messageId : Str) (instant : Instant) :
      Handles row (.delivered messageId)
        { row with
          sentAt := some instant
          providerMessageId := some messageId }
  | retried (error : Str) (instant delay : Int)
      (inRange : backoff[row.attempts + 1]? = some delay) :
      Handles row (.refused error) { row.failed error with nextAttemptAt := instant }
  | buried (error : Str) (instant : Instant) (spent : backoff.length ≤ row.attempts + 1) :
      Handles row (.refused error) { row.failed error with deadLetteredAt := some instant }

theorem Handles.changed {row current : OutboxMessage} {delivery : Delivery}
    (handles : Handles row delivery current) : OutboxMessage.changed row current row = current := by
  cases handles <;> simp [OutboxMessage.changed, OutboxMessage.failed]

theorem RelaysRow.handles {row : OutboxMessage} {entries : List Sent} {writes : List Write}
    (relays : RelaysRow row entries writes) :
    ∃ delivery current, Handles row delivery current ∧
      entries.filterMap Sent.delivers = [(row, delivery)] ∧
      .updateOutbox row current ∈ writes := by
  cases relays with
  | delivered send now asked timed messageId outcome =>
      exact ⟨_, _, .delivered messageId now.env.now,
        by simp [Sent.delivers, asked, timed, outcome], List.mem_cons_self⟩
  | refused send now asked timed error outcome delay inRange =>
      exact ⟨_, _, .retried error _ delay inRange,
        by simp [Sent.delivers, asked, timed, outcome], List.mem_cons_self⟩
  | exhausted send now alert asked timed drawn error outcome spent =>
      exact ⟨_, _, .buried error now.env.now spent,
        by simp [Sent.delivers, asked, timed, drawn, outcome], List.mem_cons_self⟩

/-- The database a transaction leaves behind if it commits. -/
def Done.result (done : Done) : Db :=
  done.world.db.after (Session.writes done.transaction)

theorem Relays.flushed {rows : List OutboxMessage} {entries : List Sent} {writes : List Write}
    (relays : Relays rows entries writes) :
    ((unitOfWork writes).filterMap Write.updates).Perm (rows.map OutboxMessage.id) := by
  rw [← relays.updates]
  exact (List.perm_insertionSort _ writes).filterMap _

/-- What a committed cycle has written for a claimed row, and where it leaves the row. -/
theorem Cycle.relayed {done : Done} {result : Outcome} (cycle : Cycle done (.ok result))
    {row : OutboxMessage} (member : row ∈ done.batch) :
    ∃ own ownWrites, RelaysRow row own ownWrites ∧ own.filterMap Sent.delivers ⊆ done.deliveries ∧
      ownWrites ⊆ Session.writes done.transaction ∧
      ∀ current, .updateOutbox row current ∈ ownWrites →
        done.result.outbox.find row.id = some (OutboxMessage.changed row current row) := by
  cases cycle.ends with
  | committed entries writes relays sent deliveries whole =>
      have all : ∀ write ∈ unitOfWork writes, RelayWrite done.batch write := fun write member =>
        relays.write write (mem_unitOfWork.mp member)
      have once : ((unitOfWork writes).filterMap Write.updates).Nodup :=
        relays.flushed.nodup_iff.mpr cycle.once
      obtain ⟨own, ownWrites, relaysRow, inEntries, inWrites⟩ := relays.row member
      refine ⟨own, ownWrites, relaysRow, ?_, ?_, fun current update => ?_⟩
      · rw [deliveries]
        exact fun sent inOwn => by
          obtain ⟨entry, entryIn, same⟩ := List.mem_filterMap.mp inOwn
          exact List.mem_filterMap.mpr ⟨entry, inEntries entryIn, same⟩
      · rw [whole]
        exact fun write inOwn => mem_unitOfWork.mpr (inWrites inOwn)
      · rw [Done.result, whole, (outbox_after_updates done.world.db all once row.id).2 row current
          (mem_unitOfWork.mpr (inWrites update)) rfl, cycle.stored row member, Option.map_some]

theorem Cycle.handles {done : Done} {result : Outcome} (cycle : Cycle done (.ok result)) :
    done.deliveries.map Prod.fst = done.batch ∧
      (∀ row ∈ done.batch, ∃ delivery current, Handles row delivery current ∧
        (row, delivery) ∈ done.deliveries ∧ done.result.outbox.find row.id = some current) ∧
      ∀ id ∉ done.batch.map OutboxMessage.id,
        done.result.outbox.find id = done.world.db.outbox.find id := by
  refine ⟨?_, fun row member => ?_, fun id outside => ?_⟩
  · cases cycle.ends with
    | committed entries writes relays sent deliveries whole => exact deliveries ▸ relays.sends
  · obtain ⟨own, ownWrites, relaysRow, delivers, _, leaves⟩ := cycle.relayed member
    obtain ⟨delivery, current, handles, isOwn, update⟩ := relaysRow.handles
    exact ⟨delivery, current, handles, delivers (by simp [isOwn]),
      handles.changed ▸ leaves current update⟩
  · cases cycle.ends with
    | committed entries writes relays sent deliveries whole =>
        have all : ∀ write ∈ unitOfWork writes, RelayWrite done.batch write := fun write member =>
          relays.write write (mem_unitOfWork.mp member)
        have once : ((unitOfWork writes).filterMap Write.updates).Nodup :=
          relays.flushed.nodup_iff.mpr cycle.once
        rw [Done.result, whole]
        exact (outbox_after_updates done.world.db all once id).1 fun inside =>
          outside (relays.flushed.mem_iff.mp inside)

end Fristenwaechter
