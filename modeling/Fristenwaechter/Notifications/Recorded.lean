import Fristenwaechter.Notifications.Notices
import Fristenwaechter.Notifiers.Send

/-!
Owns the ids that the notifiers return: which of them fit the column they are stored in.
An id that does not fit fails the commit of the cycle after the provider has accepted
the message.
-/

namespace Fristenwaechter

variable (repr : Json → Str)

/-- The send of a row: by Brevo or by seven.io, behind the gate. -/
def OutboxMessage.send (baseUrl : Str) (cap : Nat) (committed : Db) (now : Instant)
    (row : OutboxMessage) (posted : Posted) : Delivery :=
  match row.channel with
  | .email => brevoSend repr baseUrl row.template row.payload row.dedupKey posted
  | .sms =>
      sevenSend repr (.send cap committed now row.template row.payload) row.dedupKey posted

/-- The send returns an id, and writing it into the row is valid wherever the row is. -/
def Delivery.StoredIn (row : OutboxMessage) (delivery : Delivery) : Prop :=
  ∃ messageId, delivery = .delivered messageId ∧ ∀ (db : Db) (sentAt : Instant),
    (db.outbox.find row.id).isSome →
      (Write.updateOutbox row
        { row with sentAt := some sentAt, providerMessageId := some messageId }).check db = .ok ()

theorem recordable_iff {row : OutboxMessage} {delivery : Delivery} :
    delivery.StoredIn row ↔
      ∃ messageId, delivery = .delivered messageId ∧ messageId.length ≤ 100 := by
  have checked : ∀ (messageId : Str) (db : Db) (sentAt : Instant),
      (Write.updateOutbox row
        { row with sentAt := some sentAt, providerMessageId := some messageId }).check db =
          .ok () ↔ messageId.length ≤ 100 ∧ (db.outbox.find row.id).isSome := by
    intro messageId db sentAt
    simp only [Write.check, require_then_eq_ok, require_eq_ok, fitsOption, fits,
      decide_eq_true_eq]
  constructor
  · rintro ⟨messageId, delivered, valid⟩
    have present : ((Db.empty.outbox.insert row).find row.id).isSome := by
      rw [Library.Table.find_insert, if_pos (show Library.Keyed.key row = row.id from rfl),
        Option.isSome_or, Option.isSome_some, Bool.or_true]
    exact ⟨messageId, delivered,
      ((checked messageId { Db.empty with outbox := Db.empty.outbox.insert row } 0).mp
        (valid _ 0 present)).1⟩
  · rintro ⟨messageId, delivered, short⟩
    exact ⟨messageId, delivered, fun db sentAt present =>
      (checked messageId db sentAt).mpr ⟨short, present⟩⟩

namespace HttpResponse

def Accepts (response : HttpResponse) : OutboxChannel → Prop
  | .email => response.status / 100 = 2
  | .sms => response.status / 100 = 2 ∧ ∃ data, response.json = some (.obj data) ∧
      ((data.lookup "success".toList).getD .null).print repr = "100".toList

/-- The id the notifier looks for. -/
def givenId (response : HttpResponse) : OutboxChannel → Option Json
  | .email =>
      match response.json with
      | some (.obj members) => members.lookup "messageId".toList
      | _ => none
  | .sms =>
      match response.json with
      | some (.obj data) => firstMessageId data
      | _ => none

/-- There is such an id, and it is not falsy. -/
def GivesId (response : HttpResponse) (channel : OutboxChannel) : Prop :=
  ∃ id, response.givenId channel = some id ∧ id.truthy

/-- The provider's ids have at most 100 characters. -/
def IdFits (response : HttpResponse) (channel : OutboxChannel) : Prop :=
  ∀ id, response.givenId channel = some id → id.truthy → (id.print repr).length ≤ 100

/-- A body of Brevo that is JSON is an object. -/
def Readable (response : HttpResponse) : OutboxChannel → Prop
  | .email => ∀ value, response.json = some value → ∃ members, value = .obj members
  | .sms => True

end HttpResponse

theorem orElse_short_iff {id : Option Json} {other : Str}
    (idFits : ∀ value, id = some value → value.truthy → (value.print repr).length ≤ 100) :
    (orElse repr id other).length ≤ 100 ↔
      (∃ value, id = some value ∧ value.truthy) ∨ other.length ≤ 100 := by
  cases id with
  | none => simp [orElse]
  | some value =>
      cases truthy : value.truthy with
      | true => simp [orElse, truthy, idFits value rfl truthy]
      | false => simp [orElse, truthy]

/-- An id of six characters and the key fits for a key of at most 94. -/
theorem synthesized_short_iff {front dedupKey : Str} (six : front.length = 6) :
    (front ++ dedupKey).length ≤ 100 ↔ dedupKey.length ≤ 94 := by
  rw [List.length_append, six]
  omega

theorem brevoAnswer_recordable_iff {response : HttpResponse} {row : OutboxMessage}
    (accepted : response.Accepts repr .email) (idFits : response.IdFits repr .email) :
    (brevoAnswer repr response row.dedupKey).StoredIn row ↔
      response.GivesId .email ∨ (response.Readable .email ∧ row.dedupKey.length ≤ 94) := by
  have success : ¬ response.status / 100 ≠ 2 := not_not.mpr accepted
  rw [recordable_iff, brevoAnswer, if_neg success]
  unfold HttpResponse.GivesId HttpResponse.givenId HttpResponse.Readable
  unfold HttpResponse.IdFits HttpResponse.givenId at idFits
  have fits := @synthesized_short_iff "brevo:".toList row.dedupKey rfl
  cases body : response.json with
  | none =>
      simp only [Delivery.delivered.injEq, exists_eq_left', fits]
      simp
  | some value =>
      rw [body] at idFits
      cases value with
      | obj members =>
          have short := @orElse_short_iff repr _ ("brevo:".toList ++ row.dedupKey) idFits
          simp only [Delivery.delivered.injEq, exists_eq_left', short, fits]
          simp
      | _ => simp

theorem sevenAnswer_recordable_iff {response : HttpResponse} {row : OutboxMessage}
    (accepted : response.Accepts repr .sms) (idFits : response.IdFits repr .sms) :
    (sevenAnswer repr response row.dedupKey).StoredIn row ↔
      response.GivesId .sms ∨ row.dedupKey.length ≤ 94 := by
  obtain ⟨isSuccess, data, body, code⟩ := accepted
  have success : ¬ response.status / 100 ≠ 2 := not_not.mpr isSuccess
  have answered : sevenAnswer repr response row.dedupKey =
      .delivered (orElse repr (firstMessageId data) ("seven:".toList ++ row.dedupKey)) := by
    rw [sevenAnswer, if_neg success, body]
    exact if_neg (not_not.mpr code)
  unfold HttpResponse.GivesId HttpResponse.givenId
  unfold HttpResponse.IdFits HttpResponse.givenId at idFits
  rw [body] at idFits ⊢
  have short := @orElse_short_iff repr _ ("seven:".toList ++ row.dedupKey) idFits
  rw [recordable_iff, answered]
  simp only [Delivery.delivered.injEq, exists_eq_left', short,
    @synthesized_short_iff "seven:".toList _ rfl]

theorem Notice.rendered (notice : Notice) (baseUrl : Str) :
    ∃ mail, renderEmail repr notice.template notice.payload baseUrl = some mail := by
  cases notice <;> exact ⟨_, rfl⟩

variable {repr} {baseUrl : Str} {cap : Nat} {committed : Db} {now : Instant}

/-- A message the provider has accepted can be recorded exactly when the gate withheld
it, the provider gave its id, or the synthesized id fits beside its prefix; Brevo's body
must not be JSON without an object. Brevo is asked only under a key in ASCII. -/
theorem accepted_recordable_iff {row : OutboxMessage} {response : HttpResponse}
    (noticed : (Write.insertOutbox row).IsNotice)
    (accepted : response.Accepts repr row.channel)
    (idFits : response.IdFits repr row.channel)
    (asked : row.channel = .email → isAscii row.dedupKey = true)
    (passes : row.channel = .sms →
      SevenGate.send cap committed now row.template row.payload ≠ .raise) :
    (row.send repr baseUrl cap committed now (.ok response)).StoredIn row ↔
      (row.channel = .sms ∧ ∃ companyId,
          SevenGate.send cap committed now row.template row.payload = .skip companyId) ∨
        response.GivesId row.channel ∨
        (response.Readable row.channel ∧ row.dedupKey.length ≤ 94) := by
  obtain ⟨notice, template, payload⟩ := noticed
  unfold OutboxMessage.send
  cases channel : row.channel with
  | email =>
      rw [channel] at accepted idFits
      obtain ⟨mail, rendered⟩ := notice.rendered repr baseUrl
      have sent : brevoSend repr baseUrl row.template row.payload row.dedupKey (.ok response) =
          brevoAnswer repr response row.dedupKey := by
        unfold brevoSend
        rw [template, payload, rendered, asked channel]
        rfl
      simp only [sent, brevoAnswer_recordable_iff repr accepted idFits, reduceCtorEq, false_and,
        false_or]
  | sms =>
      rw [channel] at accepted idFits
      cases gate : SevenGate.send cap committed now row.template row.payload with
      | raise => exact absurd gate (passes channel)
      | skip companyId =>
          have short : (skippedSentinelPrefix ++ companyId.text).length ≤ 100 := by
            rw [List.length_append, Uuid.text_length]
            decide
          exact ⟨fun _ => .inl ⟨rfl, companyId, rfl⟩,
            fun _ => recordable_iff.mpr ⟨_, rfl, short⟩⟩
      | post =>
          have sent : sevenSend repr .post row.dedupKey (.ok response) =
              sevenAnswer repr response row.dedupKey := rfl
          simp only [sent, sevenAnswer_recordable_iff repr accepted idFits]
          simp [HttpResponse.Readable]

/-- An email of E6 to an address of 60 characters. -/
def longAddressRow : OutboxMessage :=
  e6Message ⟨2⟩ ⟨4⟩ (e6Context ⟨⟨1⟩, ⟨2⟩, ['A'], ['B'], none, none, none, true, none, none, 1⟩ 0)
    (.email, List.replicate 60 'a') ⟨5⟩ 0

theorem longAddressRow_noticed : (Write.insertOutbox longAddressRow).IsNotice :=
  ⟨.failed _ _, rfl, rfl⟩

/-- With an id of the provider it can be recorded. -/
theorem accepted_recordable_given :
    (longAddressRow.send Json.dumps [] 0 Db.empty 0
      (.ok ⟨201, [], some (.obj [("messageId".toList, .str ['1'])])⟩)).StoredIn
        longAddressRow := by
  refine (@accepted_recordable_iff Json.dumps [] 0 Db.empty 0 longAddressRow
    ⟨201, [], some (.obj [("messageId".toList, .str ['1'])])⟩
    longAddressRow_noticed (show 201 / 100 = 2 by decide) ?_ (fun _ => by decide)
    (fun sms => absurd sms (by decide))).mpr
      (.inr (.inl ⟨.str ['1'], rfl, rfl⟩))
  rintro id given -
  obtain rfl := Option.some.inj (given.symm.trans rfl)
  decide

/-- Accepted without an id, it cannot: its key fits the outbox, its synthesized id does
not. -/
theorem accepted_unrecordable :
    longAddressRow.dedupKey.length ≤ 120 ∧
      ¬ (longAddressRow.send Json.dumps [] 0 Db.empty 0
        (.ok ⟨201, [], some (.obj [])⟩)).StoredIn longAddressRow := by
  refine ⟨by decide, ?_⟩
  rw [recordable_iff]
  rintro ⟨messageId, delivered, short⟩
  obtain rfl := Delivery.delivered.inj (delivered.symm.trans rfl)
  exact absurd short (by decide)

end Fristenwaechter
