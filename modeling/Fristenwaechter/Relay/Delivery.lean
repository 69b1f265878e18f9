import Fristenwaechter.Relay.Cycle
import Fristenwaechter.Relay.Enqueueing

/-!
Owns the delivery state machine of the outbox: what the columns of a row say about the
sends of the committed cycles, that a delivered or dead row stays as it is, and that
every dead letter has its alert.
-/

namespace Fristenwaechter

open Library (Chain Commits Config Discipline Engine Journal Over Policy Reachable Sound Table)

/-! ### Histories -/

def Done.isCommitted (done : Done) : Bool :=
  match done.outcome with
  | some (.ok _) => true
  | _ => false

def Done.isCycle (done : Done) : Bool :=
  done.request matches .relayOutbox

theorem Done.isCycle_iff {done : Done} : done.isCycle = true ↔ done.request = .relayOutbox := by
  unfold Done.isCycle
  split
  · rename_i isRelay
    simp [isRelay]
  · rename_i other
    simpa using other

section Leave

variable {sha256 : Str → Str} {validateKennzeichen : Str → Option Str}

theorem leave_uncommitted {done : Done} (uncommitted : done.isCommitted = false) :
    (system sha256 validateKennzeichen).leave done = done.world := by
  unfold Engine.leave
  split
  · rename_i isOk
    simp [Done.isCommitted, isOk] at uncommitted
  · rfl

theorem committed_well {done : Done} (committed : done.isCommitted = true) :
    ∃ result, done.outcome = some (.ok result) := by
  unfold Done.isCommitted at committed
  split at committed
  · rename_i result isOk
    exact ⟨result, isOk⟩
  · cases committed

theorem leave_committed {done : Done} {result : Outcome}
    (well : done.outcome = some (.ok result)) :
    (system sha256 validateKennzeichen).leave done = { done.world with db := done.result } := by
  rw [Engine.leave, well]
  rfl

end Leave

/-- A send that raised a `NotifierError`. -/
def Delivery.isRefused : Delivery → Bool
  | .refused _ => true
  | _ => false

/-- The failed sends of a row in one cycle. -/
def Done.failures (done : Done) (id : Uuid) : Nat :=
  done.deliveries.countP fun sent => sent.1.id = id && sent.2.isRefused

def Done.enqueues (done : Done) (id : Uuid) : Bool :=
  (Session.writes done.transaction).any fun write =>
    match write with
    | .insertOutbox row => row.id = id
    | _ => false

def Done.deletes (done : Done) (id : Uuid) : Bool :=
  (Session.writes done.transaction).any fun write =>
    match write with
    | .deleteOutbox ids => ids.contains id
    | _ => false

/-- The failed sends of a row in committed cycles, since it was enqueued. -/
def failedSends (history : List Done) (id : Uuid) : Nat :=
  history.foldl (fun count done =>
    if ¬ done.isCommitted then count
    else if done.isCycle then count + done.failures id
    else if done.enqueues id then 0
    else count) 0

/-- A committed cycle has delivered the row. -/
def DeliveredIn (history : List Done) (row : OutboxMessage) : Prop :=
  ∃ done ∈ history, done.isCommitted ∧ done.isCycle ∧ ∃ sent messageId,
    (sent, Delivery.delivered messageId) ∈ done.deliveries ∧ sent.id = row.id ∧
      row.providerMessageId = some messageId

/-- What the columns of a row say about its sends. -/
structure OutboxMessage.Tracked (row : OutboxMessage) (history : List Done) : Prop where
  attempts : row.attempts = failedSends history row.id
  bounded : row.attempts ≤ backoff.length
  dead : row.deadLetteredAt.isSome ↔ row.attempts = backoff.length
  exclusive : row.sentAt = none ∨ row.deadLetteredAt = none
  sent : row.sentAt.isSome → DeliveredIn history row

def OutboxMessage.Closed (row : OutboxMessage) : Prop :=
  row.sentAt.isSome ∨ row.deadLetteredAt.isSome

theorem failedSends_append (history : List Done) (done : Done) (id : Uuid) :
    failedSends (history ++ [done]) id =
      if ¬ done.isCommitted then failedSends history id
      else if done.isCycle then failedSends history id + done.failures id
      else if done.enqueues id then 0
      else failedSends history id := by
  rw [failedSends, List.foldl_append]
  rfl

theorem DeliveredIn.append {history : List Done} {row : OutboxMessage}
    (delivered : DeliveredIn history row) (done : Done) :
    DeliveredIn (history ++ [done]) row := by
  obtain ⟨cycle, member, rest⟩ := delivered
  exact ⟨cycle, List.mem_append_left _ member, rest⟩

theorem OutboxMessage.Fresh.tracked {row : OutboxMessage} (fresh : row.Fresh)
    {history : List Done} (none : failedSends history row.id = 0) : row.Tracked history where
  attempts := fresh.attempts.trans none.symm
  bounded := by
    rw [fresh.attempts]
    exact Nat.zero_le _
  dead := by
    rw [fresh.deadLetteredAt, fresh.attempts]
    decide
  exclusive := .inl fresh.sentAt
  sent := by simp [fresh.sentAt]

theorem OutboxMessage.Tracked.append {row : OutboxMessage} {history : List Done}
    (tracked : row.Tracked history) {done : Done}
    (same : failedSends (history ++ [done]) row.id = failedSends history row.id) :
    row.Tracked (history ++ [done]) where
  attempts := tracked.attempts.trans same.symm
  bounded := tracked.bounded
  dead := tracked.dead
  exclusive := tracked.exclusive
  sent isSent := (tracked.sent isSent).append done

/-! ### Committed cycles -/

theorem isDue_open {row : OutboxMessage} {now : Instant} (due : row.isDue now = true) :
    row.sentAt = none ∧ row.deadLetteredAt = none := by
  simp only [OutboxMessage.isDue, decide_eq_true_eq, Option.isNone_iff_eq_none] at due
  exact ⟨due.1, due.2.1⟩

theorem countP_key {Item Key : Type} [DecidableEq Key] (key : Item → Key) (counted : Item → Bool)
    {items : List Item} (distinct : (items.map key).Nodup) {item : Item} (member : item ∈ items) :
    (items.countP fun other => key other = key item && counted other) =
      if counted item then 1 else 0 := by
  induction items with
  | nil => cases member
  | cons first rest inductionHypothesis =>
      obtain ⟨apart, restDistinct⟩ := List.nodup_cons.mp distinct
      rw [List.countP_cons]
      rcases List.mem_cons.mp member with rfl | member
      · have none : (rest.countP fun other => key other = key item && counted other) = 0 := by
          rw [List.countP_eq_zero]
          intro other inside
          have different : key other ≠ key item := fun same =>
            apart (List.mem_map.mpr ⟨other, inside, same⟩)
          simp [different]
        simp [none]
      · have different : key first ≠ key item := fun same =>
          apart (List.mem_map.mpr ⟨item, member, same.symm⟩)
        rw [inductionHypothesis restDistinct member]
        simp [different]

theorem Cycle.failures {done : Done} {result : Outcome} (cycle : Cycle done (.ok result))
    {row : OutboxMessage} {delivery : Delivery} (sent : (row, delivery) ∈ done.deliveries) :
    done.failures row.id = if delivery.isRefused then 1 else 0 := by
  have distinct : (done.deliveries.map fun sent => sent.1.id).Nodup := by
    have once := cycle.once
    rw [← cycle.handles.1, List.map_map] at once
    exact once
  exact countP_key (fun sent => sent.1.id) (fun sent => sent.2.isRefused) distinct sent

theorem Cycle.noFailures {done : Done} {result : Outcome} (cycle : Cycle done (.ok result))
    {id : Uuid} (outside : id ∉ done.batch.map OutboxMessage.id) : done.failures id = 0 := by
  rw [Done.failures, List.countP_eq_zero]
  intro sent member
  have inBatch : sent.1 ∈ done.batch := by
    rw [← cycle.handles.1]
    exact List.mem_map.mpr ⟨sent, member, rfl⟩
  have different : sent.1.id ≠ id := fun same =>
    outside (List.mem_map.mpr ⟨sent.1, inBatch, same⟩)
  simp [different]

theorem Handles.tracked {history : List Done} {done : Done} {row current : OutboxMessage}
    {delivery : Delivery} {now : Instant} (handles : Handles row delivery current)
    (tracked : row.Tracked history) (due : row.isDue now = true)
    (isCommitted : done.isCommitted) (isCycle : done.isCycle)
    (sent : (row, delivery) ∈ done.deliveries)
    (failures : done.failures row.id = if delivery.isRefused then 1 else 0) :
    current.Tracked (history ++ [done]) := by
  obtain ⟨notSent, notDead⟩ := isDue_open due
  have length : backoff.length = 5 := rfl
  have below : row.attempts ≠ backoff.length := by
    intro spent
    have isDead := tracked.dead.mpr spent
    simp [notDead] at isDead
  have bounded := tracked.bounded
  have counted : failedSends (history ++ [done]) row.id =
      row.attempts + done.failures row.id := by
    rw [failedSends_append, tracked.attempts]
    simp [isCommitted, isCycle]
  cases handles with
  | delivered messageId instant =>
      refine ⟨?_, tracked.bounded, tracked.dead, .inr notDead, fun _ => ?_⟩
      · change row.attempts = failedSends (history ++ [done]) row.id
        rw [counted, failures]
        rfl
      · exact ⟨done, by simp, isCommitted, isCycle, row, messageId, sent, rfl, rfl⟩
  | retried error instant delay inRange =>
      have inside : row.attempts + 1 < backoff.length :=
        (List.getElem?_eq_some_iff.mp inRange).1
      refine ⟨?_, inside.le, ?_, .inl notSent, by simp [OutboxMessage.failed, notSent]⟩
      · change row.attempts + 1 = failedSends (history ++ [done]) row.id
        rw [counted, failures]
        rfl
      · simp only [OutboxMessage.failed, notDead]
        constructor
        · simp
        · intro spent
          omega
  | buried error instant spent =>
      refine ⟨?_, ?_, ?_, .inl notSent, by simp [OutboxMessage.failed, notSent]⟩
      · change row.attempts + 1 = failedSends (history ++ [done]) row.id
        rw [counted, failures]
        rfl
      · change row.attempts + 1 ≤ backoff.length
        omega
      · simp only [OutboxMessage.failed, Option.isSome_some, true_iff]
        omega

end Fristenwaechter
