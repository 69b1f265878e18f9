import Fristenwaechter.Persistence
import Fristenwaechter.Relay.Enqueueing
import Fristenwaechter.Sweeps.Enqueue

/-!
Owns which notification an outbox row is: in every run each row stands under the key of
its own occasion and contact, so a taken key means the same notification.
-/

namespace Fristenwaechter

open Library (Config Discipline Reachable Sound Table)
open Library.Program (forEach)

variable {sha256 : Str → Str} {validateKennzeichen : Str → Option Str}

/-- The row stands under the key of an occasion for its own contact. -/
structure OutboxMessage.Tells (row : OutboxMessage) (occasion : Occasion) : Prop where
  template : row.template = occasion.template
  key : row.dedupKey = occasion.key (row.channel, row.recipient)

def Db.Identified (db : Db) : Prop :=
  ∀ row ∈ db.outbox, ∃ occasion, row.Tells occasion

def Write.Tells : Write → Prop
  | .insertOutbox row => ∃ occasion, row.Tells occasion
  | _ => True

theorem Write.Requested.tells : ∀ write, Write.Requested write → write.Tells := by
  intro write requested
  cases write with
  | insertOutbox row =>
      obtain ⟨occasion, contact, id, createdAt, companyId, payload, priority, rfl⟩ := requested
      exact ⟨occasion, rfl, rfl⟩
  | _ => trivial

theorem Db.Identified.same {db : Db} (identified : db.Identified) {row : OutboxMessage}
    (member : row ∈ db.outbox) {occasion : Occasion} {contact : OutboxChannel × Str}
    (taken : row.dedupKey = occasion.key contact) :
    row.Tells occasion ∧ (row.channel, row.recipient) = contact := by
  obtain ⟨other, tells⟩ := identified row member
  obtain ⟨rfl, rfl⟩ := Occasion.key_eq_iff.mp (tells.key.symm.trans taken)
  exact ⟨tells, rfl⟩

/-! ### Writes -/

theorem Db.Identified.write {db : Db} {write : Write} (tells : write.Tells)
    (identified : db.Identified) : (write.apply db).Identified := by
  cases write with
  | insertOutbox new =>
      intro row member
      rcases Table.mem_insert.mp member with old | ⟨rfl, _⟩
      · exact identified row old
      · exact tells
  | updateOutbox loaded current =>
      intro row member
      obtain ⟨before, inDb, rfl⟩ := (Table.mem_update (by simp)).mp member
      obtain ⟨occasion, told⟩ := identified before inDb
      refine ⟨occasion, ?_⟩
      split
      · exact ⟨told.template, told.key⟩
      · exact told
  | deleteOutbox ids => exact fun row member => identified row (Table.mem_remove.mp member).1
  | _ => exact identified

theorem Db.Identified.after {db : Db} {writes : List Write}
    (tell : ∀ write ∈ writes, write.Tells) (identified : db.Identified) :
    (db.after writes).Identified := by
  induction writes generalizing db with
  | nil => exact identified
  | cons write rest inductionHypothesis =>
      rw [Db.after_cons]
      exact inductionHypothesis (fun other member => tell other (List.mem_cons_of_mem _ member))
        (identified.write (tell write List.mem_cons_self))

/-! ### Transactions -/

theorem tells_relayOutbox : postgres.Preserves (OnlyEver Write.Tells) relayOutbox :=
  only_relayOutbox (fun _ _ => trivial) fun _ _ _ => trivial

/-- Whatever a transaction has executed by any of its statements tells of an occasion. -/
theorem request_tells {request : Request} {world : World} {outcome : Except Error Outcome}
    {after : Session}
    (ended : (system sha256 validateKennzeichen).Ends
      ((system sha256 validateKennzeichen).program request)
      ((system sha256 validateKennzeichen).opening world request) outcome after) :
    OnlyEver Write.Tells after := by
  by_cases relay : request = .relayOutbox
  · subst relay
    refine (only_transaction (only_then tells_relayOutbox fun _ => only_pure _)) _ _ _ ended ?_
    exact .opening _ _
  · exact (request_requested relay _ _ _ ended (.opening _ _)).mono Write.Requested.tells

/-! ### Runs -/

variable (sha256 validateKennzeichen) in
theorem identityDiscipline :
    Discipline (system sha256 validateKennzeichen) .unrestricted readCommitted
      (fun world => world.db.Identified) fun _ _ => True where
  refl _ := trivial
  trans _ _ := trivial
  advance identified _ := ⟨identified, trivial⟩
  commit commits := ⟨commits.nowInv.after (request_tells commits.ends).writes, trivial⟩

/-- What the dedup keys promise. -/
structure DedupKeys (sha256 : Str → Str) (validateKennzeichen : Str → Option Str) : Prop where
  /-- Two calls give one key exactly if they agree on everything. -/
  identify : ∀ (occasion other : Occasion) (contact target : OutboxChannel × Str),
    occasion.key contact = other.key target ↔ occasion = other ∧ contact = target
  /-- Overdue tokens agree exactly within an ISO week of an ISO year. -/
  weekly : ∀ {dueOn dueToo one two : Date} {token other : Str} {display shown : Int},
    reminderNotch dueOn one = some (token, display) →
    reminderNotch dueToo two = some (other, shown) → daysUntil dueOn one < 0 →
    daysUntil dueToo two < 0 → (token = other ↔ one.isoWeek = two.isoWeek)
  /-- ISO weeks run from Monday to Sunday; ordinal 1 is a Monday. -/
  weeks : ∀ one two : Date,
    one.isoWeek = two.isoWeek ↔ (one.toOrdinal - 1) / 7 = (two.toOrdinal - 1) / 7
  /-- An overdue token is never one ahead of a due date. -/
  apart : ∀ {dueOn dueToo one two : Date} {token other : Str} {display shown : Int},
    reminderNotch dueOn one = some (token, display) →
    reminderNotch dueToo two = some (other, shown) → daysUntil dueOn one < 0 →
    0 ≤ daysUntil dueToo two → token ≠ other
  /-- `_enqueue_unique` only suppresses a key that stands in the outbox it sees. -/
  suppresses : ∀ {companyId : Uuid} {channel : OutboxChannel} {recipient template : Str}
    {payload : List (Str × Json)} {priority : Nat} {dedupKey : Str} {session after : Session},
    postgres.Ends (enqueueUnique companyId channel recipient template payload priority dedupKey)
      session (.ok false) after →
    ∃ entry ∈ after.trace, entry.statement = .outboxKey dedupKey ∧
      ∃ row ∈ (Sent.db entry).outbox, row.dedupKey = dedupKey
  /-- In every run every row tells of an occasion, and a row with the key of a notification
  that a statement of any transaction sees is that notification. -/
  runs : ∀ {world : World}
    {config : Config World Memory Connection Statement Answer Env Error Request Outcome},
    world.db.Identified →
    Reachable (system sha256 validateKennzeichen) .unrestricted ⟨world, [], []⟩ config →
    config.world.db.Identified ∧
      ∀ done ∈ config.ended, done.outcome.isSome = true → ∀ entry ∈ done.transaction.trace,
        ∀ row ∈ (Sent.db entry).outbox, ∀ (occasion : Occasion) (contact : OutboxChannel × Str),
          row.dedupKey = occasion.key contact →
            row.Tells occasion ∧ (row.channel, row.recipient) = contact

theorem enqueueUnique_suppresses {companyId : Uuid} {channel : OutboxChannel}
    {recipient template : Str} {payload : List (Str × Json)} {priority : Nat} {dedupKey : Str}
    {session after : Session}
    (ended : postgres.Ends
      (enqueueUnique companyId channel recipient template payload priority dedupKey) session
      (.ok false) after) :
    ∃ entry ∈ after.trace, entry.statement = .outboxKey dedupKey ∧
      ∃ row ∈ (Sent.db entry).outbox, row.dedupKey = dedupKey := by
  rcases ends_then.mp ended with ⟨taken, middle, first, second⟩ | ⟨_, same, _⟩
  swap
  · cases same
  rcases select_ends first with ⟨flushed, _, sent⟩ | ⟨_, same, _⟩
  swap
  · cases same
  obtain ⟨entry, asked, rfl, isTaken⟩ := sends_outboxKey sent
  cases found : taken with
  | true =>
      rw [found] at second isTaken
      obtain ⟨row, member, matched⟩ := List.any_eq_true.mp (Except.ok.inj isTaken).symm
      obtain ⟨_, own⟩ := (Bool.and_eq_true _ _).mp matched
      have inTrace : entry ∈ after.trace :=
        (Library.Server.ends_trace second).subset (by simp)
      exact ⟨entry, inTrace, asked.statement, row, member, of_decide_eq_true own⟩
  | false =>
      rw [found] at second
      rcases ends_then.mp second with ⟨_, _, _, rest⟩ | ⟨_, same, _⟩
      · rcases ends_then.mp rest with ⟨_, _, _, done⟩ | ⟨_, same, _⟩
        · cases done.1
        · cases same
      · cases same

/-- **Dedup keys identify notifications.** -/
theorem dedup_keys_identify (sha256 : Str → Str) (validateKennzeichen : Str → Option Str) :
    DedupKeys sha256 validateKennzeichen where
  identify _ _ _ _ := Occasion.key_eq_iff
  weekly := overdue_token_iff
  weeks _ _ := isoWeek_eq_iff
  apart := overdue_token_ne
  suppresses := enqueueUnique_suppresses
  runs := by
    intro world config identified reached
    have sound := (Sound.reachable (system_laws sha256 validateKennzeichen)
      (identityDiscipline sha256 validateKennzeichen) (Sound.quiet identified) reached).1
    refine ⟨sound.inv, ?_⟩
    intro done member isOver entry inTrace row inOutbox occasion contact taken
    obtain ⟨outcome, isOutcome⟩ := Option.isSome_iff_exists.mp isOver
    obtain ⟨_, _, start, _, _, chain, ends, _⟩ := sound.concluded done member
    have seen : Db.Identified entry.world.db := (chain.seen entry inTrace).1
    have own := (request_tells (ends outcome isOutcome)).seen entry inTrace
    exact (seen.after own).same inOutbox taken

end Fristenwaechter
