import Fristenwaechter.Library.Serial
import Fristenwaechter.Auth.Invitations

/-!
Owns `accept_submit`: the transaction that makes the account is committed before a
second one looks the account up, under row-level security and without a pinned company.
The look-up finds nothing, so whoever presents an acceptable invitation is told that it
is invalid.
-/

namespace Fristenwaechter

/-- `data.get(name, "")`. -/
def Form.field (data : Form) (name : String) : Str :=
  (data.get name.toList).getD []

namespace Accounts

open Library (Engine Ended Serial Served)

inductive Response where
  /-- The form again, with 400. -/
  | passwordTooShort (token : Str)
  /-- The page of an invalid invitation, with 400. -/
  | invalid
  /-- An exception that the handler does not catch. -/
  | internalServerError
  /-- 303 to `/dashboard` with the session cookie. -/
  | redirect (sessionToken : Str)
deriving DecidableEq

def Response.isError : Response → Bool
  | redirect _ => false
  | _ => true

/-- The `except` clause of `accept_submit`. -/
def Error.response : Error → Response
  | invitationInvalid => .invalid
  | _ => .internalServerError

variable (primitives : Primitives)

/-- `accept_submit`, served alone: the world it leaves, its transactions and its answer. -/
def acceptSubmit (world : World) (data : Form) (first second : List Env) :
    Option (World × List Done × Response) := do
  if (data.field "password").length < 10 then
    return (world, [], .passwordTooShort (data.field "token"))
  else
    let (middle, acceptance) ← (accounts primitives).serve world
      (.acceptInvitation (data.field "token") (data.field "password")) first
    match acceptance.outcome with
    | some (.ok (.accepted uid)) =>
        let (next, opening) ← (accounts primitives).serve middle (.openSession uid) second
        match opening.outcome with
        | some (.ok (.opened sessionToken)) =>
            return (next, [acceptance, opening], .redirect sessionToken)
        | some (.error error) => return (next, [acceptance, opening], error.response)
        | _ => none
    | some (.error error) => return (middle, [acceptance], error.response)
    | _ => none

/-- The form presents an unused invitation of an unregistered email, which had not
expired when the request read the clock, and a password that is long enough. -/
structure Acceptable (world : World) (data : Form) (history : List Done) (inv : Invitation) :
    Prop where
  member : inv ∈ world.db.invitations
  token : inv.tokenHash = primitives.hashToken (data.field "token")
  unused : inv.acceptedAt = none
  unexpired : ∃ done ∈ history, ∃ entry ∈ done.transaction.trace,
    entry.statement = .now ∧ entry.env.now < inv.expiresAt
  free : ¬ Taken world.db.users AccountUser.email inv.email
  password : 10 ≤ (data.field "password").length

/-- An error answer means that nothing has happened, and whoever presents an acceptable
invitation gets a session for the new account. -/
structure AllOrNothing (world next : World) (data : Form) (history : List Done)
    (response : Response) : Prop where
  nothing : response.isError = true →
    (∀ user ∈ next.db.users, user ∈ world.db.users) ∧
      ∀ inv ∈ world.db.invitations,
        inv.tokenHash = primitives.hashToken (data.field "token") →
          inv ∈ next.db.invitations
  everything : ∀ inv, Acceptable primitives world data history inv →
    ∃ sessionToken, response = .redirect sessionToken ∧
      ∃ user ∈ next.db.users, user.email = inv.email ∧ user ∉ world.db.users ∧
        ∃ session ∈ next.db.sessions, session.accountUserId = user.id ∧
          session.tokenHash = primitives.hashToken sessionToken

variable {primitives}

theorem openSession_refused {userId : Uuid} {outcome : Except Error Str} {after : Session}
    (ended : postgres.Ends (openSession primitives userId) Session.new outcome after) :
    outcome = .error .invitationInvalid := by
  unfold openSession at ended
  obtain ⟨loaded, _, ended⟩ := step_quiet (fun _ _ _ => rfl) ended
  have hidden : ((Session.new.connection.view loaded.world.db).users.find userId).filter
      (fun row => Session.new.connection.currentCompany = some row.companyId) = none := by
    simp [Session.new]
  rw [hidden] at ended
  exact ended.1

theorem opening_refused {userId : Uuid} {outcome : Except Error Result} {after : Session}
    (ended : postgres.Ends (Request.body primitives (.openSession userId)) Session.new outcome
      after) : outcome = .error .invitationInvalid := by
  rcases ends_then.mp ended with ⟨_, _, opened, _⟩ | ⟨error, rfl, failed⟩
  · cases openSession_refused opened
  · cases openSession_refused failed
    rfl

theorem drifts_db {before after : World} (drifts : (accounts primitives).Drifts before after) :
    after.db = before.db := by
  induction drifts with
  | refl => rfl
  | tail _ step inductionHypothesis =>
      obtain ⟨_, _, rfl⟩ := step
      exact inductionHypothesis

theorem acceptable_of_accepted {world : World} {data : Form} {done : Done} {result : Result}
    (request : done.request = .acceptInvitation (data.field "token")
      (data.field "password"))
    (served : Served (accounts primitives) readCommitted world done)
    (isOk : done.outcome = some (.ok result))
    (long : 10 ≤ (data.field "password").length) :
    ∃ inv, Acceptable primitives world data [done] inv := by
  have ends := served.ends _ isOk
  rw [request] at ends
  obtain ⟨userId, rfl, accepted⟩ := ends_return ends
  obtain ⟨inv, user, accepts⟩ := acceptInvitation_ends accepted
  obtain ⟨_, _, same, token⟩ := accepts.request
  cases same
  obtain ⟨read, readIn, member⟩ := accepts.read
  obtain ⟨insert, insertIn, free⟩ := accepts.free
  have atRead := drifts_db (served.seen read readIn).2.2.1
  have atInsert := drifts_db (served.seen insert insertIn).2.2.1
  rw [atRead] at member
  rw [atInsert] at free
  exact ⟨inv, member, token, accepts.unused, ⟨done, by simp, accepts.inTime⟩, free, long⟩

theorem acceptSubmit_cases {world next : World} {data : Form} {first second : List Env}
    {history : List Done} {response : Response}
    (ran : acceptSubmit primitives world data first second = some (next, history, response)) :
    response.isError = true ∧
      (next.db = world.db ∨ ∃ inv, Acceptable primitives world data history inv) := by
  unfold acceptSubmit at ran
  have laws := accounts_laws primitives
  split at ran
  · cases ran
    exact ⟨rfl, .inl rfl⟩
  · rename_i long
    obtain ⟨⟨middle, acceptance⟩, serve, ran⟩ := Option.bind_eq_some_iff.mp ran
    obtain ⟨request, left, _, served⟩ := Engine.serve_served laws serve
    simp only at ran
    split at ran
    · rename_i userId isOk
      obtain ⟨inv, acceptable⟩ := acceptable_of_accepted request served isOk (by omega)
      obtain ⟨⟨last, opening⟩, reopened, ran⟩ := Option.bind_eq_some_iff.mp ran
      obtain ⟨_, outcome, isOutcome, ends⟩ := Engine.serve_ends laws reopened
      have refused : opening.outcome = some (.error .invitationInvalid) :=
        isOutcome.trans (congrArg some (opening_refused ends))
      simp only [refused] at ran
      cases ran
      obtain ⟨clockRead, clockIn, read⟩ := acceptable.unexpired
      exact ⟨rfl, .inr ⟨inv, { acceptable with
        unexpired := ⟨clockRead, List.mem_append_left _ clockIn, read⟩ }⟩⟩
    · rename_i error isError
      cases ran
      refine ⟨by cases error <;> rfl, .inl ?_⟩
      rw [left, Engine.leave, isError]
      exact drifts_db served.drifts
    · cases ran

/-- **Acceptance is not all-or-nothing.** A post does what it answers exactly when it
presents no acceptable invitation: with one, the answer is still an error. -/
theorem accept_submit_all_or_nothing {world next : World} {data : Form} {first second : List Env}
    {history : List Done} {response : Response}
    (ran : acceptSubmit primitives world data first second = some (next, history, response)) :
    AllOrNothing primitives world next data history response ↔
      ¬ ∃ inv, Acceptable primitives world data history inv := by
  obtain ⟨isError, nothing⟩ := acceptSubmit_cases ran
  constructor
  · rintro allOrNothing ⟨inv, acceptable⟩
    obtain ⟨sessionToken, rfl, _⟩ := allOrNothing.everything inv acceptable
    cases isError
  · intro none
    have same : next.db = world.db := nothing.resolve_right none
    refine ⟨fun _ => ?_, fun inv acceptable => absurd ⟨inv, acceptable⟩ none⟩
    rw [same]
    exact ⟨fun user member => member, fun inv member _ => member⟩

def fleetMoments (first steps : Nat) : List Env :=
  (List.range steps).map fun step => fleetTick (first + step)

def fleetPost : Form :=
  [("token".toList, ['A']), ("password".toList, "geheim1234".toList)]

/-- A post with an unknown token. -/
theorem accept_submit_unknown : ∃ next history response,
    acceptSubmit plainPrimitives ⟨Db.empty, 0⟩ fleetPost (fleetMoments 1 1) [] =
      some (next, history, response) ∧ response = .invalid ∧
    AllOrNothing plainPrimitives ⟨Db.empty, 0⟩ next fleetPost history response := by
  have ran : (acceptSubmit plainPrimitives ⟨Db.empty, 0⟩ fleetPost (fleetMoments 1 1) []).any
      (fun posted => posted.2.2 = .invalid) = true := by
    decide +kernel
  obtain ⟨⟨next, history, response⟩, posted, answered⟩ := (Option.any_eq_true _ _).mp ran
  refine ⟨next, history, response, posted, of_decide_eq_true answered,
    (accept_submit_all_or_nothing posted).mpr ?_⟩
  rintro ⟨inv, acceptable⟩
  exact absurd acceptable.member List.not_mem_nil

/-- After a signup and an invitation, the valid form is answered with the page of an
invalid invitation, and the account is there. -/
theorem accept_submit_half_done : ∃ world history next calls response inv,
    Serial (accounts plainPrimitives) ⟨Db.empty, 0⟩ world history ∧
    acceptSubmit plainPrimitives world fleetPost (fleetMoments 70 8) (fleetMoments 80 1) =
      some (next, calls, response) ∧
    Acceptable plainPrimitives world fleetPost calls inv ∧ response = .invalid ∧
    (∃ user ∈ next.db.users, user ∉ world.db.users) ∧
    ¬ AllOrNothing plainPrimitives world next fleetPost calls response := by
  have ran : ((accounts plainPrimitives).serve ⟨Db.empty, 0⟩ (.signup "Spedition".toList
        "chef@spedition.de".toList "geheim1234".toList none) (fleetMoments 1 6)).any (fun founded =>
      ((accounts plainPrimitives).serve founded.1 (.createInvitation ⟨1⟩
          "anna@spedition.de".toList .viewer) (fleetMoments 65 4)).any fun invited =>
        (acceptSubmit plainPrimitives invited.1 fleetPost (fleetMoments 70 8)
            (fleetMoments 80 1)).any fun posted =>
          posted.2.2 = .invalid ∧ posted.1.db.users.rows.any fun user =>
            user ∉ invited.1.db.users.rows) = true := by
    decide +kernel
  obtain ⟨⟨founded, signup⟩, first, ran⟩ := (Option.any_eq_true _ _).mp ran
  obtain ⟨⟨world, invitation⟩, second, ran⟩ := (Option.any_eq_true _ _).mp ran
  obtain ⟨⟨next, calls, response⟩, posted, ran⟩ := (Option.any_eq_true _ _).mp ran
  obtain ⟨answered, added⟩ := of_decide_eq_true ran
  obtain ⟨user, userIn, isNew⟩ := List.any_eq_true.mp added
  have absent : user ∉ world.db.users.rows := of_decide_eq_true isNew
  obtain ⟨isError, nothing⟩ := acceptSubmit_cases posted
  obtain ⟨inv, acceptable⟩ := nothing.resolve_left fun same => absent (same ▸ userIn)
  refine ⟨world, [signup, invitation], next, calls, response, inv,
    (Serial.nothing.serve first).serve second, posted, acceptable, answered,
    ⟨user, userIn, absent⟩, ?_⟩
  intro allOrNothing
  exact absent ((allOrNothing.nothing isError).1 user userIn)

end Accounts

end Fristenwaechter
