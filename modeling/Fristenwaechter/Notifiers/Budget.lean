import Mathlib.Data.List.Induction
import Fristenwaechter.Notifiers.Seven
import Fristenwaechter.Relay.Delivery
import Fristenwaechter.Sweeps.Reminders

/-!
Owns the monthly SMS budget over serial runs: which messages the relay hands to the
provider, and when the count that gates them keeps them below the cap.
-/

namespace Fristenwaechter

open Library (Ended Engine Served Serial Table)

/-! ### Handed messages -/

/-- The row is an SMS of the company that the budget limits. -/
def OutboxMessage.isCapped (row : OutboxMessage) (companyId : Uuid) : Bool :=
  row.companyId = companyId && row.channel = .sms && !criticalSmsTemplates.contains row.template

/-- The gate a row meets in the world of its send. -/
def Sent.gate (entry : Sent) (cap : Nat) (row : OutboxMessage) : SevenGate :=
  .send cap entry.world.db entry.env.now row.template row.payload

/-- The statement posts this SMS to the provider. -/
def Sent.HandsOver (entry : Sent) (cap : Nat) (row : OutboxMessage) : Prop :=
  entry.statement = .deliver row ∧ row.channel = .sms ∧ entry.gate cap row = .post

/-- The send ends as `SevenNotifier` ends it. -/
def Sent.ThroughSeven (entry : Sent) (cap : Nat) : Prop :=
  ∀ row, entry.statement = .deliver row → row.channel = .sms →
    match entry.gate cap row with
    | .post => True
    | .skip companyId =>
        entry.env.delivery = .delivered (skippedSentinelPrefix ++ companyId.text)
    | .raise => entry.env.delivery = .crashed

/-- The limited SMS of the company that a statement is to send. -/
def Sent.capped (entry : Sent) (companyId : Uuid) : Option OutboxMessage :=
  match entry.statement with
  | .deliver row => if row.isCapped companyId then some row else none
  | _ => none

/-- The limited SMS of the company that a cycle comes to. -/
def Done.capped (done : Done) (companyId : Uuid) : List OutboxMessage :=
  done.transaction.trace.filterMap fun entry => Sent.capped entry companyId

/-- Those of them that it hands to the provider. -/
def Done.handedOver (done : Done) (cap : Nat) (companyId : Uuid) : List OutboxMessage :=
  done.transaction.trace.filterMap fun entry =>
    (Sent.capped entry companyId).filter fun row => Sent.gate entry cap row = .post

/-- The limited SMS of the company that a history has handed to the provider. -/
def handedOver (cap : Nat) (companyId : Uuid) (history : List Done) : List OutboxMessage :=
  history.flatMap fun done => Done.handedOver done cap companyId

/-- The payload names the company of the row. -/
def OutboxMessage.NamesCompany (row : OutboxMessage) : Prop :=
  ∃ value, row.payload.lookup "company_id".toList = some value ∧ value ≠ .null ∧
    Uuid.ofJson value = some row.companyId

/-- The cycle starts with the count at the cap, or with room for all it comes to above
what has been handed over before. -/
def Done.Budgeted (done : Done) (cap : Nat) (companyId : Uuid) (month : Instant)
    (before : Nat) : Prop :=
  cap ≤ done.world.db.smsSent companyId month ∧
      (∀ row ∈ done.capped companyId, row.NamesCompany) ∨
    before + (done.capped companyId).length ≤ cap

/-- Every send of the history falls into the month. -/
def InMonth (month : Instant) (history : List Done) : Prop :=
  ∀ done ∈ history, ∀ entry ∈ (Ended.transaction done).trace, ∀ row,
    entry.statement = .deliver row → monthStartInstant entry.env.now = some month

theorem capped_spec {entry : Sent} {companyId : Uuid} {row : OutboxMessage}
    (capped : Sent.capped entry companyId = some row) :
    entry.statement = .deliver row ∧ row.companyId = companyId ∧ row.channel = .sms ∧
      row.template ∉ criticalSmsTemplates := by
  unfold Sent.capped at capped
  split at capped
  · rename_i asked
    split at capped
    · rename_i isCapped
      cases capped
      simp only [OutboxMessage.isCapped, Bool.and_eq_true, decide_eq_true_eq,
        Bool.not_eq_true', List.contains_eq_mem, decide_eq_false_iff_not] at isCapped
      exact ⟨asked, isCapped.1.1, isCapped.1.2, isCapped.2⟩
    · cases capped
  · cases capped

/-- With the count at the cap the gate skips every limited SMS that names its company. -/
theorem gate_skips {entry : Sent} {cap : Nat} {month : Instant} {row : OutboxMessage}
    (limited : row.template ∉ criticalSmsTemplates) (named : row.NamesCompany)
    (isMonth : monthStartInstant entry.env.now = some month)
    (spent : cap ≤ entry.world.db.smsSent row.companyId month) :
    entry.gate cap row = .skip row.companyId := by
  obtain ⟨value, found, notNull, isCompany⟩ := named
  have isOver : overLimit cap entry.world.db entry.env.now row.companyId = some true := by
    simp [overLimit, isMonth, spent]
  unfold Sent.gate SevenGate.send
  rw [if_neg limited, found]
  cases value with
  | null => exact absurd rfl notNull
  | _ => simp only [isCompany, isOver]

/-- A critical SMS passes the gate whatever the count. -/
theorem gate_posts {entry : Sent} {cap : Nat} {row : OutboxMessage}
    (critical : row.template ∈ criticalSmsTemplates) : entry.gate cap row = .post := by
  have known : ∀ template ∈ criticalSmsTemplates, template ∈ smsTemplates := by decide
  unfold Sent.gate SevenGate.send
  rw [if_pos critical, rendered, if_pos (known _ critical)]

theorem handedOver_sublist (done : Done) (cap : Nat) (companyId : Uuid) :
    (done.handedOver cap companyId).Sublist (done.capped companyId) := by
  unfold Done.handedOver Done.capped
  induction done.transaction.trace with
  | nil => exact List.Sublist.refl _
  | cons entry rest inductionHypothesis =>
      cases capped : Sent.capped entry companyId with
      | none => simpa [capped] using inductionHypothesis
      | some row =>
          simp only [List.filterMap_cons, capped, Option.filter_some, decide_eq_true_eq]
          split
          · rename_i none
            exact inductionHypothesis.cons row
          · rename_i posts
            split at posts
            · cases posts
              exact inductionHypothesis.cons_cons row
            · cases posts

theorem Done.Budgeted.keeps {done : Done} {cap before : Nat} {companyId : Uuid} {month : Instant}
    (budgeted : done.Budgeted cap companyId month before) (below : before ≤ cap)
    (sameDb : ∀ entry ∈ done.transaction.trace, entry.world.db = done.world.db)
    (inMonth : ∀ entry ∈ done.transaction.trace, ∀ row, entry.statement = .deliver row →
      monthStartInstant entry.env.now = some month) :
    before + (done.handedOver cap companyId).length ≤ cap := by
  rcases budgeted with ⟨spent, named⟩ | room
  · have none : done.handedOver cap companyId = [] := by
      refine List.filterMap_eq_nil_iff.mpr fun entry member => ?_
      cases capped : Sent.capped entry companyId with
      | none => rfl
      | some row =>
          obtain ⟨asked, own, _, limited⟩ := capped_spec capped
          have spentHere : cap ≤ entry.world.db.smsSent row.companyId month := by
            rw [sameDb entry member, own]
            exact spent
          have skips := gate_skips limited
            (named row (List.mem_filterMap.mpr ⟨entry, member, capped⟩))
            (inMonth entry member row asked) spentHere
          simp [skips]
    rw [none]
    exact below
  · have fewer := (handedOver_sublist done cap companyId).length_le
    omega

section Run

variable {sha256 : Str → Str} {validateKennzeichen : Str → Option Str}

theorem serial_sameDb {start world : World} {history : List Done}
    (serial : Serial (system sha256 validateKennzeichen) start world history) :
    ∀ done ∈ history, ∀ entry ∈ (Ended.transaction done).trace,
      entry.world.db = (Ended.world done).db := by
  refine serial.each (system_laws sha256 validateKennzeichen) fun served => ?_
  obtain ⟨sameDb, seen⟩ := served_sees served
  exact fun entry inTrace => (seen entry inTrace).1.trans sameDb.symm

theorem serial_delivers {start world : World} {history : List Done}
    (serial : Serial (system sha256 validateKennzeichen) start world history) :
    ∀ done ∈ history, Ended.request done = .relayOutbox → Done.isCommitted done = true →
      ∀ row ∈ Done.batch done, ∃ entry ∈ (Ended.transaction done).trace,
        entry.statement = .deliver row := by
  refine serial.each (system_laws sha256 validateKennzeichen) ?_
  intro before done served isRelay committed row inBatch
  obtain ⟨result, well⟩ := committed_well committed
  obtain ⟨middle, ran, executed⟩ := relayOutbox_ran (served.ends _ well) isRelay
  obtain ⟨clock, claim, _, _, _, _, ends⟩ := cycle_committed ran executed
  cases ends with
  | committed entries writes relays sent =>
      obtain ⟨own, ownWrites, relaysRow, inEntries, _⟩ := relays.row inBatch
      cases relaysRow with
      | delivered send _ asked => exact ⟨send, sent (inEntries List.mem_cons_self), asked⟩
      | refused send _ asked => exact ⟨send, sent (inEntries List.mem_cons_self), asked⟩
      | exhausted send _ _ asked => exact ⟨send, sent (inEntries List.mem_cons_self), asked⟩

/-- **SMS budget.** In a serial run whose cycles all start within their budget, at most
`cap` limited SMS of a company are handed over in a month; and every critical SMS that a
committed cycle has claimed is handed over. -/
theorem sms_budget (sha256 : Str → Str) (validateKennzeichen : Str → Option Str) (cap : Nat)
    (companyId : Uuid) (month : Instant) {start world : World} {history : List Done}
    (serial : Serial (system sha256 validateKennzeichen) start world history)
    (inMonth : InMonth month history) :
    ((∀ earlier done later, history = earlier ++ done :: later →
        Done.Budgeted done cap companyId month (handedOver cap companyId earlier).length) →
      (handedOver cap companyId history).length ≤ cap) ∧
    ∀ done ∈ history, Ended.request done = .relayOutbox → Done.isCommitted done = true →
      ∀ row ∈ Done.batch done, row.channel = .sms → row.template ∈ criticalSmsTemplates →
        ∃ entry ∈ (Ended.transaction done).trace, Sent.HandsOver entry cap row := by
  constructor
  · have sameDb := serial_sameDb serial
    clear serial
    induction history using List.reverseRecOn with
    | nil => exact fun _ => Nat.zero_le _
    | append_singleton history done inductionHypothesis =>
        intro budgeted
        have below := inductionHypothesis
          (fun other member => inMonth other (List.mem_append_left _ member))
          (fun other member => sameDb other (List.mem_append_left _ member))
          fun earlier other later isHistory => by
            refine budgeted earlier other (later ++ [done]) ?_
            rw [isHistory, List.append_assoc]
            rfl
        have last := budgeted history done [] rfl
        have kept := last.keeps below (sameDb done (by simp)) (inMonth done (by simp))
        simpa [handedOver] using kept
  · intro done member isRelay committed row inBatch isSms critical
    obtain ⟨entry, inTrace, asked⟩ :=
      serial_delivers serial done member isRelay committed row inBatch
    exact ⟨entry, inTrace, asked, isSms, gate_posts critical⟩

end Run

/-! ### Two reminders in one batch -/

def fleetSms (number : Nat) : OutboxMessage :=
  .staged (fleetId number) 1767225000 (fleetId 100) .sms "+4930123456".toList
    "deadline_reminder".toList [("company_id".toList, .str (fleetId 100).text)] 100 (decimal number)

def smsWorld : World where
  db := { fleetWorld.db with outbox := (Table.empty.insert (fleetSms 11)).insert (fleetSms 12) }
  clock := fleetWorld.clock

/-- The start of 1970-01 in Berlin. -/
def fleetMonth : Instant := -3600000000

def Done.postsAll (done : Done) (cap : Nat) : Bool :=
  done.transaction.trace.all fun entry =>
    match entry.statement with
    | .deliver row =>
        monthStartInstant entry.env.now = some fleetMonth && Sent.gate entry cap row = .post
    | _ => true

theorem Done.postsAll_spec {done : Done} {cap : Nat} (posts : done.postsAll cap = true) :
    InMonth fleetMonth [done] ∧
      ∀ entry ∈ done.transaction.trace, Sent.ThroughSeven entry cap := by
  have all : ∀ entry ∈ done.transaction.trace, ∀ row, entry.statement = .deliver row →
      monthStartInstant entry.env.now = some fleetMonth ∧ Sent.gate entry cap row = .post := by
    intro entry member row asked
    have holds := List.all_eq_true.mp posts entry member
    rw [asked] at holds
    simpa only [Bool.and_eq_true, decide_eq_true_eq] using holds
  constructor
  · intro other member entry inTrace row asked
    rw [List.mem_singleton.mp member] at inTrace
    exact (all entry inTrace row asked).1
  · intro entry inTrace row asked _
    rw [(all entry inTrace row asked).2]
    trivial

/-- A cap of two covers both. -/
theorem sms_budget_fleet :
    ∃ world history, Serial (system id some) smsWorld world history ∧
      (handedOver 2 (fleetId 100) history).length ≤ 2 := by
  have served : ((system id some).serve smsWorld .relayOutbox (fleetEnvs 1 14)).any
      (fun served => Done.postsAll served.2 2 &&
        (Done.capped served.2 (fleetId 100)).length = 2) = true := by
    decide +kernel
  obtain ⟨⟨world, done⟩, ran, holds⟩ := (Option.any_eq_true _ _).mp served
  simp only [Bool.and_eq_true, decide_eq_true_eq] at holds
  obtain ⟨posts, two⟩ := holds
  have serial : Serial (system id some) smsWorld world [done] := Serial.nothing.serve ran
  refine ⟨world, [done], serial,
    (sms_budget id some 2 (fleetId 100) fleetMonth serial (Done.postsAll_spec posts).1).1 ?_⟩
  intro earlier other later isHistory
  have isFirst : earlier = [] := by
    cases earlier with
    | nil => rfl
    | cons first rest => simp at isHistory
  subst isFirst
  cases isHistory
  exact .inr (by simp [handedOver, two])

/-- With a cap of one the same batch hands over two. -/
theorem batch_crosses_cap :
    ¬ ∀ (cap : Nat) (companyId : Uuid) (month : Instant) (start world : World)
        (history : List Done), Serial (system id some) start world history →
      (∀ done ∈ history, Ended.request done = .relayOutbox) → InMonth month history →
      (∀ done ∈ history, ∀ entry ∈ (Ended.transaction done).trace, Sent.ThroughSeven entry cap) →
      (handedOver cap companyId history).length ≤ cap := by
  intro claimed
  have served : ((system id some).serve smsWorld .relayOutbox (fleetEnvs 1 14)).any
      (fun served => Done.postsAll served.2 1 && Done.isCycle served.2 &&
        (handedOver 1 (fleetId 100) [served.2]).length = 2) = true := by
    decide +kernel
  obtain ⟨⟨world, done⟩, ran, holds⟩ := (Option.any_eq_true _ _).mp served
  simp only [Bool.and_eq_true, decide_eq_true_eq] at holds
  obtain ⟨⟨posts, isRelay⟩, two⟩ := holds
  have isRelay : Ended.request done = .relayOutbox := Done.isCycle_iff.mp isRelay
  obtain ⟨inMonth, through⟩ := Done.postsAll_spec posts
  have serial : Serial (system id some) smsWorld world [done] := Serial.nothing.serve ran
  have below := claimed 1 (fleetId 100) fleetMonth smsWorld world [done] serial
    (by simp [isRelay]) inMonth (by simpa using through)
  rw [two] at below
  omega

end Fristenwaechter
