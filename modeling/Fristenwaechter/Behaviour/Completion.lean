import Fristenwaechter.Behaviour.Requests
import Fristenwaechter.Behaviour.Within
import Fristenwaechter.Calendar.Months

/-!
Owns what a completed deadline spawns: the successor is due where the roll-forward rule
of its kind puts it, and the rule is a function of the kind, the result, the day and the
interval of the vehicle.
-/

namespace Fristenwaechter

open Library (Server)

variable {sha256 : Str → Str} {session after : Session}
variable {deadlineId companyId : Uuid} {result : Str} {completedOn : Date}
variable {performedById : Option Uuid} {method : Option Str}

/-- The roll-forward rule: the due date of the successor, and whether it is a
Nachprüfung. -/
def rollForward (kind : DeadlineKind) (result : Str) (interval : Int) (completedOn : Date) :
    Option (Date × Bool) :=
  match kind with
  | .fsk => (nextFskDue completedOn fskIntervalMonths).map fun due => (due, false)
  | .hu =>
      if result = resultFailedDefects then
        (daysForward completedOn nachpruefungDays).map fun due => (due, true)
      else (nextHuDue completedOn interval).map fun due => (due, false)
  | .uvv => (nextUvvDue completedOn).map fun due => (due, false)

def ReadsInterval (parent : Deadline) (interval : Int) (trace : List Sent) : Prop :=
  parent.kind = .hu → ∃ entry ∈ trace, ∃ vehicleId row, parent.subject = .vehicle vehicleId ∧
    entry.statement = .vehicleForUpdate vehicleId ∧ Sent.vehicle entry vehicleId = some row ∧
    interval = (Memory.instanceOf entry.memory.vehicles row).huIntervalMonths

theorem completeByKind_due {parent : Deadline} {log : ComplianceCheckLog} {caseId : Option Uuid}
    {due : Date} {nachpruefung : Bool}
    (ended : postgres.Ends (completeByKind sha256 parent deadlineId companyId result completedOn
      performedById method) session (.ok (log, caseId, due, nachpruefung)) after) :
    ∃ interval, ReadsInterval parent interval after.trace ∧
      rollForward parent.kind result interval completedOn = some (due, nachpruefung) := by
  unfold completeByKind at ended
  split at ended
  · rename_i driverId kind subject
    refine ⟨0, fun other => by simp [kind] at other, ?_⟩
    rcases ends_then.mp ended with ⟨driver, first, _, ended⟩ | ⟨_, same, _⟩
    swap
    · cases same
    cases driver with
    | none => cases ended.1
    | some driver =>
        rcases ends_then.mp ended with ⟨check, second, _, ended⟩ | ⟨_, same, _⟩
        swap
        · cases same
        rcases ends_then.mp ended with ⟨resolved, third, _, ended⟩ | ⟨_, same, _⟩
        swap
        · cases same
        rcases step_orThrow ended with ⟨next, dated, same, _⟩ | ⟨_, same, _⟩
        swap
        · cases same
        cases same
        simp [rollForward, kind, dated]
  · cases ended.1
  · rename_i vehicleId kind subject
    rcases ends_then.mp ended with ⟨found, first, read, ended⟩ | ⟨_, same, _⟩
    swap
    · cases same
    cases found with
    | none => cases ended.1
    | some vehicle =>
        rcases select_ends read with ⟨middle, _, sent⟩ | ⟨_, same, _⟩
        swap
        · cases same
        obtain ⟨entry, asked, ⟨_, same, _⟩ | ⟨row, isRow, same, isFirst⟩⟩ :=
          sends_vehicleForUpdate sent
        · cases same
        cases same
        have grows := Server.ends_trace ended
        have inTrace : entry ∈ after.trace := grows.subset (by simp [isFirst])
        refine ⟨_, fun _ => ⟨entry, inTrace, vehicleId, row, subject, asked.statement, isRow, rfl⟩,
          ?_⟩
        rw [asked.memory]
        rcases ends_then.mp ended with ⟨check, second, _, ended⟩ | ⟨_, same, _⟩
        swap
        · cases same
        split at ended
        · rename_i defects
          rcases step_orThrow ended with ⟨next, dated, same, _⟩ | ⟨_, same, _⟩
          swap
          · cases same
          cases same
          simp [rollForward, kind, defects, dated]
        · rename_i other
          rcases step_orThrow ended with ⟨next, dated, same, _⟩ | ⟨_, same, _⟩
          swap
          · cases same
          cases same
          simp [rollForward, kind, other, dated]
  · cases ended.1
  · rename_i kind
    refine ⟨0, fun other => by simp [kind] at other, ?_⟩
    rcases ends_then.mp ended with ⟨check, first, _, ended⟩ | ⟨_, same, _⟩
    swap
    · cases same
    rcases step_orThrow ended with ⟨next, dated, same, _⟩ | ⟨_, same, _⟩
    swap
    · cases same
    cases same
    simp [rollForward, kind, dated]

/-- What a successful completion has read and spawned. -/
structure Spawns (deadlineId companyId : Uuid) (result : Str) (completedOn : Date)
    (completion : CompletionResult) (after : Session) (parent : Deadline) (interval : Int)
    (due : Date) : Prop where
  /-- The completed deadline is the one of that id and company. -/
  read : ∃ entry ∈ after.trace, ∃ row, entry.statement = .deadlineForUpdate deadlineId companyId ∧
    Sent.deadline entry deadlineId companyId = some row ∧
    parent = Memory.instanceOf entry.memory.deadlines row
  measured : ReadsInterval parent interval after.trace
  dated : rollForward parent.kind result interval completedOn =
    some (due, completion.isNachpruefung)
  inserted : .insertDeadline
    (spawn parent due completion.isNachpruefung completion.successorDeadlineId) ∈ after.writes

/-- **A completion rolls its deadline forward.** -/
theorem completeDeadline_spawns {completion : CompletionResult}
    (ended : postgres.Ends (completeDeadline sha256 deadlineId companyId result completedOn
      performedById method) session (.ok completion) after) :
    ∃ parent interval due,
      Spawns deadlineId companyId result completedOn completion after parent interval due := by
  rcases ends_then.mp ended with ⟨found, first, read, ended⟩ | ⟨_, same, _⟩
  swap
  · cases same
  cases found with
  | none => cases ended.1
  | some parent =>
      rcases select_ends read with ⟨middle, _, sent⟩ | ⟨_, same, _⟩
      swap
      · cases same
      obtain ⟨entry, asked, ⟨_, same, _⟩ | ⟨row, isRow, same, isFirst⟩⟩ :=
        sends_deadlineForUpdate sent
      · cases same
      cases same
      have grows := Server.ends_trace ended
      have inTrace : entry ∈ after.trace := grows.subset (by simp [isFirst])
      have ended := step_addAll ended
      rcases ends_then.mp ended with ⟨⟨log, caseId, due, nachpruefung⟩, second, kinds, ended⟩ |
        ⟨_, same, _⟩
      swap
      · cases same
      obtain ⟨interval, reads, dated⟩ := completeByKind_due kinds
      have later := Server.ends_trace ended
      obtain ⟨defaults, _, ended⟩ := step_serverDefaults ended
      have ended := step_add ended
      rcases ends_then.mp ended with ⟨_, third, flushed, done⟩ | ⟨_, same, _⟩
      swap
      · cases same
      obtain ⟨same, rfl⟩ := done
      cases same
      rcases flush_ends flushed with ⟨_, executed⟩ | ⟨_, same, _⟩
      swap
      · cases same
      refine ⟨_, interval, due, ⟨entry, inTrace, row, asked.statement, isRow, by rw [asked.memory]⟩,
        fun isHu => ?_, dated, ?_⟩
      · obtain ⟨ask, member, rest⟩ := reads isHu
        exact ⟨ask, later.subset member, rest⟩
      · rw [executed.writes]
        exact List.mem_append_right _ (mem_unitOfWork.mpr (by simp))

end Fristenwaechter
