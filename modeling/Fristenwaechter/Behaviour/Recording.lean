import Fristenwaechter.Behaviour.Only
import Fristenwaechter.Behaviour.Requests

/-!
Owns what checks write: evidence, drivers, cases and deadlines, and no message.
-/

namespace Fristenwaechter

/-- The writes of a check. -/
def Write.Checks : Write → Prop
  | .insertLog _ => True
  | .updateDriver _ _ => True
  | .updateCase _ => True
  | .insertDeadline _ => True
  | .updateDeadline _ _ => True
  | _ => False

/-- What a condition on writes has to grant so that every check meets it. -/
structure GrantsChecks (allowed : Write → Prop) : Prop where
  log : ∀ row, allowed (.insertLog row)
  unlocked : ∀ driver : Driver, allowed (.updateDriver driver driver.unlocked)
  resolved : ∀ change, allowed (.updateCase change)
  completed : ∀ (deadline : Deadline) (completedOn : Date),
    allowed (.updateDeadline deadline (deadline.completed completedOn))
  successor : ∀ row, allowed (.insertDeadline row)

theorem checks_grants : GrantsChecks Write.Checks :=
  ⟨fun _ => trivial, fun _ => trivial, fun _ => trivial, fun _ _ => trivial, fun _ => trivial⟩

theorem OnlyEver.opening {sha256 : Str → Str} {validateKennzeichen : Str → Option Str}
    {allowed : Write → Prop} (world : World) (request : Request) :
    OnlyEver allowed ((system sha256 validateKennzeichen).opening world request) :=
  ⟨⟨by simp [system, serving, Library.Engine.opening, Session.writes, Library.Journal.writes],
      by simp [system, serving, Library.Engine.opening, Memory.empty]⟩,
    by simp [system, serving, Library.Engine.opening]⟩

theorem only_dateOrToday {allowed : Write → Prop} (day : Option Date) :
    postgres.Preserves (OnlyEver allowed) (dateOrToday day) := by
  cases day with
  | none => exact only_todayBerlin
  | some day => exact only_pure day

section Checks

variable {sha256 : Str → Str} {allowed : Write → Prop}
variable (grants : GrantsChecks allowed)

include grants

theorem only_recordCheck (companyId : Uuid) (kind result : Str) (performedOn : Date)
    (driverId vehicleId : Option Uuid) (method : Option Str) (performedById : Option Uuid)
    (extraParams : List (Str × Json)) :
    postgres.Preserves (OnlyEver allowed) (recordCheck sha256 companyId kind result performedOn
      driverId vehicleId method performedById extraParams) := by
  have appends : ∀ subject params, postgres.Preserves (OnlyEver allowed)
      (appendCheck sha256 companyId kind result performedOn driverId vehicleId subject method
        performedById params) := by
    intro subject params
    refine only_then (only_read fun _ may => may) fun prevHash => ?_
    refine only_then only_serverDefaults fun given => ?_
    exact only_then (only_add (grants.log _)) fun _ =>
      only_then only_flush fun _ => only_pure _
  unfold recordCheck
  split
  · exact appends _ _
  · exact appends _ _
  · exact only_throw _

theorem only_maybeResolveOpenCase (driver : Driver) (resolvedById : Option Uuid) :
    postgres.Preserves (OnlyEver allowed) (maybeResolveOpenCase driver resolvedById) := by
  refine only_then (only_read fun _ may => may) fun found => ?_
  refine only_then (only_addAll fun write member =>
    Driver.mem_update member ▸ grants.unlocked driver) fun _ => ?_
  cases found with
  | none => exact only_pure _
  | some case =>
      exact only_then only_now fun now =>
        only_then (only_add (grants.resolved _)) fun _ => only_pure _

theorem only_completeByKind (deadline : Deadline) (deadlineId companyId : Uuid) (result : Str)
    (completedOn : Date) (performedById : Option Uuid) (method : Option Str) :
    postgres.Preserves (OnlyEver allowed) (completeByKind sha256 deadline deadlineId companyId
      result completedOn performedById method) := by
  unfold completeByKind
  split
  · refine only_then (only_read fun _ may => may) fun found => ?_
    cases found with
    | none => exact only_throw _
    | some driver =>
        refine only_then (only_recordCheck grants _ _ _ _ _ _ _ _ _) fun check =>
          only_then ?_ fun resolved => only_then (only_orThrow _ _) fun due => only_pure _
        split
        · exact only_maybeResolveOpenCase grants driver performedById
        · exact only_pure _
  · exact only_throw _
  · refine only_then (only_read fun _ may => may) fun found => ?_
    cases found with
    | none => exact only_throw _
    | some vehicle =>
        refine only_then (only_recordCheck grants _ _ _ _ _ _ _ _ _) fun check => ?_
        split
        · exact only_then (only_orThrow _ _) fun due => only_pure _
        · exact only_then (only_orThrow _ _) fun due => only_pure _
  · exact only_throw _
  · exact only_then (only_recordCheck grants _ _ _ _ _ _ _ _ _) fun check =>
      only_then (only_orThrow _ _) fun due => only_pure _

theorem only_completeDeadline (deadlineId companyId : Uuid) (result : Str)
    (completedOn : Date) (performedById : Option Uuid) (method : Option Str) :
    postgres.Preserves (OnlyEver allowed) (completeDeadline sha256 deadlineId companyId result
      completedOn performedById method) := by
  refine only_then (only_read fun _ may => may) fun found => ?_
  cases found with
  | none => exact only_throw _
  | some deadline =>
      refine only_then (only_addAll fun write member =>
        Deadline.mem_update member ▸ grants.completed deadline completedOn) fun _ => ?_
      refine only_then (only_completeByKind grants _ _ _ _ _ _ _) fun done => ?_
      refine only_then only_serverDefaults fun given => ?_
      exact only_then (only_add (grants.successor _)) fun _ =>
        only_then only_flush fun _ => only_pure _

theorem only_recordDriverCheck (user : AccountUser) (driverId : Uuid) (data : Form)
    (failed : submitted data = resultFailed → ∀ performedOn,
      postgres.Preserves (OnlyEver allowed) (recordFailedCheck sha256 user driverId performedOn)) :
    postgres.Preserves (OnlyEver allowed) (recordDriverCheck sha256 user driverId data) := by
  unfold recordDriverCheck
  refine only_guard ?_
  dsimp only
  refine only_then (only_dateOrToday _) fun performedOn => ?_
  refine only_then (only_getDriver driverId) fun found => ?_
  cases found with
  | none => exact only_pure _
  | some driver =>
      dsimp only
      split
      · rename_i isFailed
        exact only_then (failed isFailed performedOn) fun _ => only_pure _
      · refine only_then ?_ fun _ => only_pure _
        refine only_then (only_read fun _ may => may) fun found => ?_
        cases found with
        | none =>
            refine only_then (only_recordCheck grants _ _ _ _ _ _ _ _ _) fun check => ?_
            exact only_then (only_maybeResolveOpenCase grants _ _) fun _ => only_pure _
        | some openFsk =>
            exact only_then (only_completeDeadline grants _ _ _ _ _ _) fun _ => only_pure _

theorem only_resolveFor (driverId : Uuid) (locking : Bool) (resolvedById : Option Uuid) :
    postgres.Preserves (OnlyEver allowed) (resolveFor driverId locking resolvedById) := by
  unfold resolveFor
  dsimp only
  split
  · refine only_then (only_read fun _ may => may) fun found => ?_
    cases found with
    | none => exact only_pure _
    | some driver => exact only_maybeResolveOpenCase grants driver resolvedById
  · refine only_then (only_getDriver driverId) fun found => ?_
    cases found with
    | none => exact only_pure _
    | some driver => exact only_maybeResolveOpenCase grants driver resolvedById

end Checks

/-- A PASSED check, as a submission or as a call of a service. -/
def Request.Passes : Request → Prop
  | .recordDriverCheck _ _ data => submitted data ≠ resultFailed
  | .completeDeadline _ _ _ result _ _ _ => result = resultPassed
  | .maybeResolveOpenCase _ _ _ _ => True
  | _ => False

theorem passes_checks {sha256 : Str → Str} {validateKennzeichen : Str → Option Str}
    {request : Request} (passes : request.Passes) :
    postgres.Preserves (OnlyEver Write.Checks)
      (transaction (request.body sha256 validateKennzeichen)) := by
  refine only_transaction ?_
  have grants := checks_grants
  cases request with
  | recordDriverCheck user driverId data =>
      refine only_then (only_recordDriverCheck grants user driverId data ?_) fun _ => only_pure _
      exact fun failed => absurd failed passes
  | completeDeadline tenant deadlineId companyId result completedOn performedById method =>
      exact only_then (only_completeDeadline grants _ _ _ _ _ _) fun _ => only_pure _
  | maybeResolveOpenCase tenant driverId locking resolvedById =>
      exact only_then (only_resolveFor grants _ _ _) fun _ => only_pure _
  | _ => exact passes.elim

end Fristenwaechter
